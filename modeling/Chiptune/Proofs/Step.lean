import Chiptune.Step
import Mathlib.Order.Defs.Unbundled

/-!
# What steps ensure

A step that succeeds from a state with one property leaves a value and a state with
another. The rules here follow the way steps are put together. A second set of rules
says where a step leads, whether it succeeds or fails.
-/

namespace Chiptune.Step

variable {ε σ τ α β : Type}

/-- From every state with `pre` in which the step succeeds, its value and the state
after it have `post`. -/
def Ensures (pre : σ → Prop) (step : EStateM ε σ α) (post : α → σ → Prop) : Prop :=
  ∀ state value next, pre state → step state = .ok value next → post value next

/-- A step that succeeds in two parts succeeds in each. -/
theorem bind_eq_ok
    {first : EStateM ε σ α} {second : α → EStateM ε σ β} {state next : σ} {value : β}
    (h : (first >>= second) state = .ok value next) :
    ∃ between reached,
      first state = .ok between reached ∧ second between reached = .ok value next := by
  change EStateM.bind first second state = _ at h
  unfold EStateM.bind at h
  split at h
  · next between reached hreached => exact ⟨between, reached, hreached, h⟩
  · cases h

theorem bind_apply_of_ok
    {first : EStateM ε σ α} {second : α → EStateM ε σ β} {state next : σ} {value : α}
    (h : first state = .ok value next) : (first >>= second) state = second value next := by
  change EStateM.bind first second state = _
  simp only [EStateM.bind, h]

theorem bind_apply_of_error
    {first : EStateM ε σ α} {second : α → EStateM ε σ β} {state next : σ} {fault : ε}
    (h : first state = .error fault next) : (first >>= second) state = .error fault next := by
  change EStateM.bind first second state = _
  simp only [EStateM.bind, h]

theorem bind_apply_congr
    {first first' : EStateM ε σ α} {state state' : σ} (h : first state = first' state')
    (second : α → EStateM ε σ β) : (first >>= second) state = (first' >>= second) state' := by
  change EStateM.bind first second state = EStateM.bind first' second state'
  simp only [EStateM.bind, h]

/-- The value of a step that succeeds, and the state after it. -/
def result? (step : EStateM ε σ α) (state : σ) : Option (α × σ) :=
  match step state with
  | .ok value next => some (value, next)
  | .error _ _ => none

theorem eq_ok_of_result?
    {step : EStateM ε σ α} {state next : σ} {value : α}
    (h : result? step state = some (value, next)) : step state = .ok value next := by
  unfold result? at h
  split at h
  · next hstep =>
      cases h
      exact hstep
  · cases h

theorem eq_ok_of_toOption
    {outcome : Except ε α} {value : α} (h : outcome.toOption = some value) :
    outcome = .ok value := by
  cases outcome with
  | ok found => rw [Option.some.inj h]
  | error fault => cases h

theorem decide_bind_apply (second : α → EStateM ε σ β) (value : α) (state : σ) :
    (decide (.ok value) >>= second) state = second value state := rfl

theorem get_bind_apply (second : σ → EStateM ε σ β) (state : σ) :
    (get >>= second) state = second state state := rfl

theorem modify_bind_apply (change : σ → σ) (second : PUnit → EStateM ε σ β) (state : σ) :
    (modify change >>= second) state = second ⟨⟩ (change state) := rfl

theorem get_bind_eq_ok
    {second : σ → EStateM ε σ β} {state next : σ} {value : β}
    (h : (get >>= second) state = .ok value next) :
    second state state = .ok value next := h

theorem modify_bind_eq_ok
    {change : σ → σ} {second : PUnit → EStateM ε σ β} {state next : σ} {value : β}
    (h : (modify change >>= second) state = .ok value next) :
    second ⟨⟩ (change state) = .ok value next := h

/-- A decision that succeeds leaves the state. -/
theorem decide_eq_ok
    {outcome : Except ε α} {state next : σ} {value : α}
    (h : decide outcome state = .ok value next) :
    outcome = .ok value ∧ state = next := by
  cases outcome with
  | ok found =>
      cases h
      exact ⟨rfl, rfl⟩
  | error fault => cases h

theorem exists_of_isOk {outcome : Except ε α} (h : outcome.isOk = true) :
    ∃ value, outcome = .ok value := by
  cases outcome with
  | ok value => exact ⟨value, rfl⟩
  | error fault => cases h

theorem outcome_bind_eq_ok
    {first : Except ε α} {second : α → Except ε β} {value : β}
    (h : (first >>= second) = .ok value) :
    ∃ between, first = .ok between ∧ second between = .ok value := by
  cases first with
  | ok between => exact ⟨between, rfl, h⟩
  | error fault => cases h

theorem map_eq_ok
    {f : α → β} {outcome : Except ε α} {value : β} (h : outcome.map f = .ok value) :
    ∃ found, outcome = .ok found ∧ f found = value := by
  cases outcome with
  | ok found =>
      cases h
      exact ⟨found, rfl, rfl⟩
  | error fault => cases h

/-- A step that advances succeeds if its outcome does. -/
theorem advance_eq_ok
    {outcome : σ → Except ε (α × σ)} {state next : σ} {value : α}
    (h : advance outcome state = .ok value next) :
    outcome state = .ok (value, next) := by
  unfold advance at h
  split at h
  · next hfound =>
      cases h
      exact hfound
  · cases h

/-- A step that does not advance leaves the state. -/
theorem advance_eq_error
    {outcome : σ → Except ε (α × σ)} {state next : σ} {fault : ε}
    (h : advance outcome state = .error fault next) :
    outcome state = .error fault ∧ next = state := by
  unfold advance at h
  split at h
  · cases h
  · next hfault =>
      cases h
      exact ⟨hfault, rfl⟩

theorem decide_eq_error
    {outcome : Except ε α} {state next : σ} {fault : ε}
    (h : decide outcome state = .error fault next) :
    outcome = .error fault ∧ next = state := by
  cases outcome with
  | ok found => cases h
  | error found =>
      cases h
      exact ⟨rfl, rfl⟩

/-- A step in two parts fails in the first or in the second. -/
theorem bind_eq_error
    {first : EStateM ε σ α} {second : α → EStateM ε σ β} {state next : σ} {fault : ε}
    (h : (first >>= second) state = .error fault next) :
    first state = .error fault next ∨
      ∃ between reached,
        first state = .ok between reached ∧ second between reached = .error fault next := by
  change EStateM.bind first second state = _ at h
  unfold EStateM.bind at h
  split at h
  · next between reached hreached => exact .inr ⟨between, reached, hreached, h⟩
  · next hfirst =>
      cases h
      exact .inl hfirst

theorem adaptExcept_eq_ok
    {ε' : Type} {step : EStateM ε σ α} {adapt : ε → ε'} {state next : σ} {value : α}
    (h : (step.adaptExcept adapt) state = .ok value next) : step state = .ok value next := by
  unfold EStateM.adaptExcept at h
  split at h
  · cases h
  · next hrun =>
      cases h
      exact hrun

theorem Ensures.bind
    {pre : σ → Prop} {first : EStateM ε σ α} {second : α → EStateM ε σ β}
    {post : β → σ → Prop} (middle : α → σ → Prop)
    (hfirst : Ensures pre first middle)
    (hsecond : ∀ value, Ensures (middle value) (second value) post) :
    Ensures pre (first >>= second) post := by
  intro state value next hpre hrun
  obtain ⟨between, reached, hreached, hrest⟩ := bind_eq_ok hrun
  have hmiddle := hfirst state between reached hpre hreached
  exact hsecond between reached value next hmiddle hrest

theorem Ensures.weaken_pre
    {pre stronger : σ → Prop} {step : EStateM ε σ α} {post : α → σ → Prop}
    (h : Ensures pre step post) (hpre : ∀ state, stronger state → pre state) :
    Ensures stronger step post := by
  intro state value next hstate hrun
  exact h state value next (hpre state hstate) hrun

theorem ensures_pure
    {pre : σ → Prop} {value : α} {post : α → σ → Prop}
    (h : ∀ state, pre state → post value state) :
    Ensures pre (pure value : EStateM ε σ α) post := by
  intro state result next hpre hrun
  cases hrun
  exact h state hpre

theorem ensures_throw
    {pre : σ → Prop} {fault : ε} {post : α → σ → Prop} :
    Ensures pre (throw fault : EStateM ε σ α) post := by
  intro state result next _ hrun
  cases hrun

theorem ensures_set
    {pre : σ → Prop} {value : σ} {post : PUnit → σ → Prop}
    (h : ∀ state, pre state → post ⟨⟩ value) :
    Ensures pre (set value : EStateM ε σ PUnit) post := by
  intro state result next hpre hrun
  cases hrun
  exact h state hpre

theorem ensures_modify
    {pre : σ → Prop} {change : σ → σ} {post : PUnit → σ → Prop}
    (h : ∀ state, pre state → post ⟨⟩ (change state)) :
    Ensures pre (modify change : EStateM ε σ PUnit) post := by
  intro state result next hpre hrun
  cases hrun
  exact h state hpre

theorem ensures_decide
    {pre : σ → Prop} {outcome : Except ε α} {post : α → σ → Prop}
    (h : ∀ value state, outcome = .ok value → pre state → post value state) :
    Ensures pre (decide outcome) post := by
  intro state result next hpre hrun
  unfold decide at hrun
  split at hrun
  · cases hrun
    exact h result state rfl hpre
  · cases hrun

/-- What a decision says is known in the step after it. -/
theorem ensures_decide_bind
    {pre : σ → Prop} {outcome : Except ε α} {second : α → EStateM ε σ β}
    {post : β → σ → Prop}
    (h : ∀ value, outcome = .ok value → Ensures pre (second value) post) :
    Ensures pre (decide outcome >>= second) post := by
  cases houtcome : outcome with
  | error fault =>
      intro state result next _ hrun
      cases hrun
  | ok value => exact h value houtcome

/-- The state that is got is the one the step after it starts from. -/
theorem ensures_get_bind
    {pre : σ → Prop} {second : σ → EStateM ε σ β} {post : β → σ → Prop}
    (h : ∀ state, pre state → Ensures (· = state) (second state) post) :
    Ensures pre (get >>= second) post := by
  intro state result next hpre hrun
  exact h state hpre state result next rfl hrun

/-- A step that moves on by the outcome of a decision. -/
theorem ensures_advance
    {γ : Type} {outcome : σ → Except ε γ} {move : σ → γ → α × σ}
    {pre : σ → Prop} {post : α → σ → Prop}
    (h : ∀ state found, pre state → outcome state = .ok found →
      post (move state found).1 (move state found).2) :
    Ensures pre (advance fun state => (outcome state).map (move state)) post := by
  intro state result next hpre hrun
  unfold advance at hrun
  cases houtcome : outcome state with
  | error fault =>
      simp only [houtcome, Except.map] at hrun
      cases hrun
  | ok found =>
      simp only [houtcome, Except.map] at hrun
      cases hrun
      exact h state found hpre houtcome

/-- A step on a part ensures of the whole what it ensures of the part. -/
theorem ensures_on
    {part : σ → τ} {put : τ → σ → σ} {step : EStateM ε τ α}
    {pre : σ → Prop} {post : α → σ → Prop}
    (h : ∀ state value next, pre state → step (part state) = .ok value next →
      post value (put next state)) :
    Ensures pre (on part put step) post := by
  intro state result next hpre hrun
  unfold on at hrun
  split at hrun
  · next after hstep =>
      cases hrun
      exact h state result after hpre hstep
  · cases hrun

/-! ## Where steps lead -/

/-- The state that is left, by success or by failure. -/
def left : EStateM.Result ε σ α → σ
  | .ok _ state => state
  | .error _ state => state

/-- Whether a step succeeded. -/
def succeeded : EStateM.Result ε σ α → Bool
  | .ok _ _ => true
  | .error _ _ => false

theorem eq_ok_of_succeeded
    {result : EStateM.Result ε σ Unit} (h : succeeded result = true) :
    result = .ok () (left result) := by
  cases result with
  | ok => rfl
  | error => cases h

theorem exists_of_not_succeeded
    {result : EStateM.Result ε σ α} (h : succeeded result = false) :
    ∃ fault state, result = .error fault state := by
  cases result with
  | ok => cases h
  | error fault state => exact ⟨fault, state, rfl⟩

/-- The step leads from the state to a related one. -/
def Leads (rel : σ → σ → Prop) (step : EStateM ε σ α) (state : σ) : Prop :=
  rel state (left (step state))

section Leads

variable {rel : σ → σ → Prop} [IsPreorder σ rel] {state : σ}

theorem leads_pure (value : α) : Leads rel (pure value : EStateM ε σ α) state :=
  refl_of rel state

theorem leads_throw (fault : ε) : Leads rel (throw fault : EStateM ε σ α) state :=
  refl_of rel state

theorem leads_decide (outcome : Except ε α) : Leads rel (decide outcome) state := by
  cases outcome with
  | ok value => exact refl_of rel state
  | error fault => exact refl_of rel state

omit [IsPreorder σ rel] in
theorem leads_modify
    {change : σ → σ} (h : rel state (change state)) :
    Leads rel (modify change : EStateM ε σ PUnit) state := h

theorem leads_bind
    {first : EStateM ε σ α} {second : α → EStateM ε σ β} (hfirst : Leads rel first state)
    (hsecond : ∀ value next, first state = .ok value next → Leads rel (second value) next) :
    Leads rel (first >>= second) state := by
  change rel state (left (EStateM.bind first second state))
  unfold Leads at hfirst
  unfold EStateM.bind
  split
  · next value next hrun =>
      rw [hrun] at hfirst
      exact trans_of rel hfirst (hsecond value next hrun)
  · next fault next hrun =>
      rw [hrun] at hfirst
      exact hfirst

omit [IsPreorder σ rel] in
theorem leads_get_bind
    {second : σ → EStateM ε σ β} (h : Leads rel (second state) state) :
    Leads rel (get >>= second) state := h

theorem leads_decide_bind
    {outcome : Except ε α} {second : α → EStateM ε σ β}
    (h : ∀ value, outcome = .ok value → Leads rel (second value) state) :
    Leads rel (decide outcome >>= second) state := by
  apply leads_bind (leads_decide outcome)
  intro value next hrun
  obtain ⟨houtcome, rfl⟩ := decide_eq_ok hrun
  exact h value houtcome

theorem leads_advance
    {outcome : σ → Except ε (α × σ)}
    (h : ∀ value next, outcome state = .ok (value, next) → rel state next) :
    Leads rel (advance outcome) state := by
  unfold Leads advance
  split
  · next value next hrun => exact h value next hrun
  · exact refl_of rel state

omit [IsPreorder σ rel] in
theorem leads_on
    {part : σ → τ} {put : τ → σ → σ} {step : EStateM ε τ α}
    (h : rel state (put (left (step (part state))) state)) :
    Leads rel (on part put step) state := by
  unfold Leads on
  cases hrun : step (part state) with
  | ok value next =>
      rw [hrun] at h
      exact h
  | error fault next =>
      rw [hrun] at h
      exact h

omit [IsPreorder σ rel] in
theorem leads_adaptExcept
    {ε' : Type} {step : EStateM ε σ α} {adapt : ε → ε'} (h : Leads rel step state) :
    Leads rel (step.adaptExcept adapt) state := by
  unfold Leads EStateM.adaptExcept
  unfold Leads at h
  cases hrun : step state with
  | ok value next =>
      rw [hrun] at h
      exact h
  | error fault next =>
      rw [hrun] at h
      exact h

end Leads

end Chiptune.Step
