import Chiptune.Proofs.Step
import Chiptune.Report

/-!
# Steps side by side

Two outcomes agree if both are good and related or both are faults of one kind. In a
lax comparison the first may also be a fault, of any kind, where the second is not. The
rules follow the way outcomes and steps are put together.
-/

namespace Chiptune

/-- A fault with its kind, wherever it lies. -/
class HasKind (ε : Type) where
  kind : ε → FaultKind

instance : HasKind Fault := ⟨Fault.kind⟩

instance : HasKind Report := ⟨fun report => report.fault.kind⟩

open HasKind Step

theorem Report.kind_locate (report : Report) (place : Location) (inclusions : List Location) :
    kind (report.locate place inclusions) = kind report := by
  unfold locate
  split <;> rfl

variable {ε ε' σ σ' τ τ' α α' β β' : Type} [HasKind ε] [HasKind ε'] {lax : Prop}

/-! ## Outcomes -/

/-- Two outcomes that agree, with related values. -/
inductive Agree (lax : Prop) (rel : α → α' → Prop) : Except ε α → Except ε' α' → Prop where
  | ok {value : α} {value' : α'} (h : rel value value') : Agree lax rel (.ok value) (.ok value')
  | fault {fault : ε} {fault' : ε'} (h : kind fault = kind fault') :
      Agree lax rel (.error fault) (.error fault')
  | blocked {fault : ε} {outcome : Except ε' α'} (h : lax) :
      Agree lax rel (.error fault) outcome

namespace Agree

variable {rel : α → α' → Prop} {rel' : β → β' → Prop} {outcome : Except ε α}
  {outcome' : Except ε' α'}

theorem bind
    {next : α → Except ε β} {next' : α' → Except ε' β'} (h : Agree lax rel outcome outcome')
    (hnext : ∀ value value', rel value value' → Agree lax rel' (next value) (next' value')) :
    Agree lax rel' (outcome >>= next) (outcome' >>= next') := by
  cases h with
  | ok h => exact hnext _ _ h
  | fault h => exact .fault h
  | blocked h => exact .blocked h

theorem map
    {f : α → β} {f' : α' → β'} (h : Agree lax rel outcome outcome')
    (hf : ∀ value value', rel value value' → rel' (f value) (f' value')) :
    Agree lax rel' (outcome.map f) (outcome'.map f') := by
  cases h with
  | ok h => exact .ok (hf _ _ h)
  | fault h => exact .fault h
  | blocked h => exact .blocked h

theorem mono
    {rel' : α → α' → Prop} (h : Agree lax rel outcome outcome')
    (hrel : ∀ value value', rel value value' → rel' value value') :
    Agree lax rel' outcome outcome' := by
  cases h with
  | ok h => exact .ok (hrel _ _ h)
  | fault h => exact .fault h
  | blocked h => exact .blocked h

end Agree

theorem agree_self (outcome : Except ε α) : Agree lax (· = ·) outcome outcome := by
  cases outcome with
  | ok value => exact .ok rfl
  | error fault => exact .fault rfl

/-! ## Steps -/

/-- Two steps that agree from two states, with values and states related at the end. -/
inductive Matched (lax : Prop) (post : α → α' → σ → σ' → Prop) :
    EStateM.Result ε σ α → EStateM.Result ε' σ' α' → Prop where
  | ok {value : α} {value' : α'} {state : σ} {state' : σ'}
      (h : post value value' state state') :
      Matched lax post (.ok value state) (.ok value' state')
  | fault {fault : ε} {fault' : ε'} {state : σ} {state' : σ'} (h : kind fault = kind fault') :
      Matched lax post (.error fault state) (.error fault' state')
  | blocked {fault : ε} {state : σ} {result : EStateM.Result ε' σ' α'} (h : lax) :
      Matched lax post (.error fault state) result

/-- Two steps run side by side from two states. -/
def Lockstep (lax : Prop) (step : EStateM ε σ α) (step' : EStateM ε' σ' α') (state : σ)
    (state' : σ') (post : α → α' → σ → σ' → Prop) : Prop :=
  Matched lax post (step state) (step' state')

/-- The values are the same, and the first state is the image of the second. -/
def Mirrored (image : σ' → σ) (value value' : α) (state : σ) (state' : σ') : Prop :=
  value = value' ∧ state = image state'

theorem lockstep_self (step : EStateM ε σ α) (state : σ) :
    Lockstep lax step step state state (Mirrored id) := by
  unfold Lockstep
  cases step state with
  | ok value next => exact .ok ⟨rfl, rfl⟩
  | error fault next => exact .fault rfl

section Lockstep

variable {state : σ} {state' : σ'} {post : α → α' → σ → σ' → Prop}
  {post' : β → β' → σ → σ' → Prop}

theorem lockstep_pure
    {value : α} {value' : α'} (h : post value value' state state') :
    Lockstep lax (pure value : EStateM ε σ α) (pure value' : EStateM ε' σ' α') state state'
      post :=
  .ok h

theorem lockstep_throw
    {fault : ε} {fault' : ε'} (h : kind fault = kind fault') :
    Lockstep lax (throw fault : EStateM ε σ α) (throw fault' : EStateM ε' σ' α') state state'
      post :=
  .fault h

theorem lockstep_throw_bind
    {fault : ε} {fault' : ε'} {second : α → EStateM ε σ β} {second' : α' → EStateM ε' σ' β'}
    (h : kind fault = kind fault') :
    Lockstep lax (throw fault >>= second) (throw fault' >>= second') state state' post' :=
  .fault h

theorem Lockstep.bind
    {first : EStateM ε σ α} {first' : EStateM ε' σ' α'} {second : α → EStateM ε σ β}
    {second' : α' → EStateM ε' σ' β'} (h : Lockstep lax first first' state state' post)
    (hsecond : ∀ value value' next next', post value value' next next' →
      Lockstep lax (second value) (second' value') next next' post') :
    Lockstep lax (first >>= second) (first' >>= second') state state' post' := by
  change Matched lax post' (EStateM.bind first second state) (EStateM.bind first' second' state')
  unfold Lockstep at h
  unfold EStateM.bind
  cases hrun : first state with
  | error fault next =>
      rw [hrun] at h
      cases hrun' : first' state' with
      | error fault' next' =>
          rw [hrun'] at h
          cases h with
          | fault h => exact .fault h
          | blocked h => exact .blocked h
      | ok value' next' =>
          rw [hrun'] at h
          cases h with
          | blocked h => exact .blocked h
  | ok value next =>
      rw [hrun] at h
      cases hrun' : first' state' with
      | error fault' next' =>
          rw [hrun'] at h
          cases h
      | ok value' next' =>
          rw [hrun'] at h
          cases h with
          | ok h => exact hsecond _ _ _ _ h

theorem lockstep_get_bind
    {second : σ → EStateM ε σ β} {second' : σ' → EStateM ε' σ' β'}
    (h : Lockstep lax (second state) (second' state') state state' post') :
    Lockstep lax (get >>= second) (get >>= second') state state' post' := h

theorem lockstep_modify
    {change : σ → σ} {change' : σ' → σ'} {post : PUnit → PUnit → σ → σ' → Prop}
    (h : post ⟨⟩ ⟨⟩ (change state) (change' state')) :
    Lockstep lax (modify change : EStateM ε σ PUnit) (modify change' : EStateM ε' σ' PUnit)
      state state' post :=
  .ok h

/-- The step after a change starts from the changed states. -/
theorem lockstep_modify_bind
    {change : σ → σ} {change' : σ' → σ'} {second : PUnit → EStateM ε σ β}
    {second' : PUnit → EStateM ε' σ' β'}
    (h : Lockstep lax (second ⟨⟩) (second' ⟨⟩) (change state) (change' state') post') :
    Lockstep lax (modify change >>= second) (modify change' >>= second') state state' post' :=
  h

theorem lockstep_decide
    {outcome : Except ε α} {outcome' : Except ε' α'} {rel : α → α' → Prop}
    (h : Agree lax rel outcome outcome')
    (hpost : ∀ value value', rel value value' → post value value' state state') :
    Lockstep lax (decide outcome) (decide outcome') state state' post := by
  cases h with
  | ok h => exact .ok (hpost _ _ h)
  | fault h => exact .fault h
  | blocked h => exact .blocked h

/-- One decision for both runs. -/
theorem lockstep_decide_bind
    {outcome : Except ε α} {second : α → EStateM ε σ β} {second' : α → EStateM ε σ' β'}
    (h : ∀ value, outcome = .ok value →
      Lockstep lax (second value) (second' value) state state' post') :
    Lockstep lax (decide outcome >>= second) (decide outcome >>= second') state state'
      post' := by
  cases outcome with
  | ok value => exact h value rfl
  | error fault => exact .fault rfl

theorem lockstep_advance
    {outcome : σ → Except ε (α × σ)} {outcome' : σ' → Except ε' (α' × σ')}
    (h : Agree lax (fun result result' => post result.1 result'.1 result.2 result'.2)
      (outcome state) (outcome' state')) :
    Lockstep lax (advance outcome) (advance outcome') state state' post := by
  unfold Lockstep advance
  revert h
  generalize outcome state = result
  generalize outcome' state' = result'
  intro h
  cases h with
  | ok h => exact .ok h
  | fault h => exact .fault h
  | blocked h => exact .blocked h

theorem lockstep_advance_bind
    {outcome : σ → Except ε (α × σ)} {outcome' : σ' → Except ε' (α' × σ')}
    {second : α → EStateM ε σ β} {second' : α' → EStateM ε' σ' β'}
    (mid : α → α' → σ → σ' → Prop)
    (h : Agree lax (fun result result' => mid result.1 result'.1 result.2 result'.2)
      (outcome state) (outcome' state'))
    (hsecond : ∀ value value' next next', mid value value' next next' →
      Lockstep lax (second value) (second' value') next next' post') :
    Lockstep lax (advance outcome >>= second) (advance outcome' >>= second') state state'
      post' :=
  (lockstep_advance h).bind hsecond

theorem lockstep_on
    {part : σ → τ} {part' : σ' → τ'} {put : τ → σ → σ} {put' : τ' → σ' → σ'}
    {step : EStateM ε τ α} {step' : EStateM ε' τ' α'} (mid : α → α' → τ → τ' → Prop)
    (h : Lockstep lax step step' (part state) (part' state') mid)
    (hpost : ∀ value value' next next', mid value value' next next' →
      post value value' (put next state) (put' next' state')) :
    Lockstep lax (on part put step) (on part' put' step') state state' post := by
  unfold Lockstep at h
  unfold Lockstep on
  revert h
  generalize step (part state) = result
  generalize step' (part' state') = result'
  intro h
  cases h with
  | ok h => exact .ok (hpost _ _ _ _ h)
  | fault h => exact .fault h
  | @blocked _ _ result' h =>
      cases result' with
      | ok value next => exact .blocked h
      | error fault next => exact .blocked h

theorem Lockstep.adaptExcept_right
    {ε₂' : Type} [HasKind ε₂'] {step : EStateM ε σ α} {step' : EStateM ε' σ' α'}
    {adapt : ε' → ε₂'} (h : Lockstep lax step step' state state' post)
    (hkind : ∀ fault, kind (adapt fault) = kind fault) :
    Lockstep lax step (step'.adaptExcept adapt) state state' post := by
  unfold Lockstep at h
  unfold Lockstep EStateM.adaptExcept
  revert h
  generalize step state = result
  generalize step' state' = result'
  intro h
  cases h with
  | ok h => exact .ok h
  | @fault fault fault' _ _ h => exact .fault (h.trans (hkind fault').symm)
  | @blocked _ _ result' h => exact .blocked h

theorem Lockstep.adaptExcept_left
    {ε₂ : Type} [HasKind ε₂] {step : EStateM ε σ α} {step' : EStateM ε' σ' α'}
    {adapt : ε → ε₂} (h : Lockstep lax step step' state state' post)
    (hkind : ∀ fault, kind (adapt fault) = kind fault) :
    Lockstep lax (step.adaptExcept adapt) step' state state' post := by
  unfold Lockstep at h
  unfold Lockstep EStateM.adaptExcept
  revert h
  generalize step state = result
  generalize step' state' = result'
  intro h
  cases h with
  | ok h => exact .ok h
  | @fault fault fault' _ _ h => exact .fault ((hkind fault).trans h)
  | @blocked _ _ result' h => exact .blocked h

/-- The second run also ends where it leads. -/
theorem Lockstep.and_leads
    {step : EStateM ε σ α} {step' : EStateM ε' σ' β} {mid : α → β → σ → σ' → Prop}
    {post : α → β → σ → σ' → Prop} {rel : σ' → σ' → Prop}
    (h : Lockstep lax step step' state state' mid) (hleads : Leads rel step' state')
    (hpost : ∀ value value' next next', mid value value' next next' → rel state' next' →
      post value value' next next') : Lockstep lax step step' state state' post := by
  unfold Lockstep at h
  unfold Lockstep
  unfold Leads at hleads
  revert h hleads
  generalize step state = result
  generalize step' state' = result'
  intro h hleads
  cases h with
  | ok h => exact .ok (hpost _ _ _ _ h hleads)
  | fault h => exact .fault h
  | blocked h => exact .blocked h

/-- Where the first run succeeds, so does the second. -/
theorem Lockstep.ok_right
    {step : EStateM ε σ α} {step' : EStateM ε' σ' α'} {value : α} {next : σ}
    (h : Lockstep lax step step' state state' post) (hrun : step state = .ok value next) :
    ∃ value' next', step' state' = .ok value' next' ∧ post value value' next next' := by
  rw [Lockstep, hrun] at h
  generalize step' state' = result at h
  cases h with
  | ok h => exact ⟨_, _, rfl, h⟩

/-- Where the second run succeeds, so does the first, if the comparison is not lax. -/
theorem Lockstep.ok_left
    {step : EStateM ε σ α} {step' : EStateM ε' σ' α'} {value' : α'} {next' : σ'}
    (h : Lockstep False step step' state state' post)
    (hrun : step' state' = .ok value' next') :
    ∃ value next, step state = .ok value next ∧ post value value' next next' := by
  rw [Lockstep, hrun] at h
  generalize step state = result at h
  cases h with
  | ok h => exact ⟨_, _, rfl, h⟩
  | blocked h => exact h.elim

/-- Two runs that go along with a third go along with each other. -/
theorem Lockstep.compare
    {σ'' α'' : Type} {step : EStateM ε σ α} {step' : EStateM ε' σ' α'}
    {step'' : EStateM ε' σ'' α''} {state'' : σ''} {post'' : α → α'' → σ → σ'' → Prop}
    {both : α' → α'' → σ' → σ'' → Prop} (h : Lockstep False step step' state state' post)
    (h' : Lockstep False step step'' state state'' post'')
    (hboth : ∀ value value' value'' next next' next'', post value value' next next' →
      post'' value value'' next next'' → both value' value'' next' next'') :
    Lockstep False step' step'' state' state'' both := by
  unfold Lockstep at h h'
  unfold Lockstep
  revert h h'
  generalize step state = result
  generalize step' state' = result'
  generalize step'' state'' = result''
  intro h h'
  cases h with
  | ok h =>
      cases h' with
      | ok h' => exact .ok (hboth _ _ _ _ _ _ h h')
  | fault h =>
      cases h' with
      | fault h' => exact .fault (h.symm.trans h')
      | blocked h' => exact h'.elim
  | blocked h => exact h.elim

end Lockstep

end Chiptune
