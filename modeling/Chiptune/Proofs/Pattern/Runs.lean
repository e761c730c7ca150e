import Chiptune.Proofs.Pattern.Kinds

/-!
# Pitches within their runs

The encoder changes the transposition where a run of the split begins, and a run takes only
pitches within two octaves above its lowest. So where a pitch is encoded, the transposition
in force is that of its own run, and the pitch has a note code.
-/

namespace Chiptune

/-! ## Splitting -/

namespace TransposeRun

theorem le_add_widest (pitch : Int) : pitch ≤ pitch + widest :=
  Int.le_add_of_nonneg_right (by decide)

section Cons

variable {index : Nat} {item : TiedItem} {items : List TiedItem} {pitch : Int}

theorem splitFrom_cons_unpitched
    (current : Option (TransposeRun × Int)) (h : item.pitch? = none) :
    splitFrom index current (item :: items) = splitFrom (index + 1) current items := by
  simp [splitFrom, h]

theorem splitFrom_cons_first (h : item.pitch? = some pitch) :
    splitFrom index none (item :: items) =
      splitFrom (index + 1) (some (⟨0, pitch⟩, pitch)) items := by
  simp [splitFrom, h]

theorem splitFrom_cons_pitched (run : TransposeRun) (high : Int) (h : item.pitch? = some pitch) :
    splitFrom index (some (run, high)) (item :: items) =
      if widest < max high pitch - min run.low pitch then
        run :: splitFrom (index + 1) (some (⟨index, pitch⟩, pitch)) items
      else
        splitFrom (index + 1) (some (⟨run.start, min run.low pitch⟩, max high pitch)) items := by
  simp [splitFrom, h]

end Cons

/-- A run that has begun stays the first of the runs. It may get lower, but not so far that
what it holds no longer fits. -/
theorem exists_splitFrom
    (index : Nat) (run : TransposeRun) (high : Int) (items : List TiedItem) :
    ∃ first later, splitFrom index (some (run, high)) items = first :: later ∧
      first.start = run.start ∧ first.low ≤ run.low ∧
      (high ≤ run.low + widest → high ≤ first.low + widest) := by
  induction items generalizing index run high with
  | nil => exact ⟨run, [], rfl, rfl, Int.le_refl _, id⟩
  | cons item items ih =>
      cases hitem : item.pitch? with
      | none =>
          rw [splitFrom_cons_unpitched _ hitem]
          exact ih (index + 1) run high
      | some pitch =>
          rw [splitFrom_cons_pitched run high hitem]
          split
          · exact ⟨run, _, rfl, rfl, Int.le_refl _, id⟩
          · next hnarrow =>
            obtain ⟨first, later, hsplit, hstart, hlow, hhigh⟩ :=
              ih (index + 1) ⟨run.start, min run.low pitch⟩ (max high pitch)
            dsimp only at hlow hhigh
            refine ⟨first, later, hsplit, hstart, by omega, fun _ => ?_⟩
            have hall := hhigh (by omega)
            omega

/-- The runs behind the first start at the items to come. -/
theorem le_start_of_later
    {index : Nat} {current : Option (TransposeRun × Int)} {items : List TiedItem}
    {first : TransposeRun} {later : List TransposeRun}
    (h : splitFrom index current items = first :: later) :
    ∀ run ∈ later, index ≤ run.start := by
  induction items generalizing index current first later with
  | nil =>
      rcases current with _ | ⟨run, high⟩
      · cases h
      · cases h
        nofun
  | cons item items ih =>
      have hbehind {current : Option (TransposeRun × Int)} {first : TransposeRun}
          {later : List TransposeRun} (h : splitFrom (index + 1) current items = first :: later) :
          ∀ run ∈ later, index ≤ run.start :=
        fun run hmem => Nat.le_of_succ_le (ih h run hmem)
      cases hitem : item.pitch? with
      | none =>
          rw [splitFrom_cons_unpitched current hitem] at h
          exact hbehind h
      | some pitch =>
          rcases current with _ | ⟨run, high⟩
          · rw [splitFrom_cons_first hitem] at h
            exact hbehind h
          · rw [splitFrom_cons_pitched run high hitem] at h
            split at h
            · obtain ⟨second, rest, hsplit, hstart, -⟩ :=
                exists_splitFrom (index + 1) ⟨index, pitch⟩ pitch items
              obtain ⟨rfl, rfl⟩ := List.cons.inj h
              rw [hsplit]
              exact List.forall_mem_cons.mpr ⟨Nat.le_of_eq hstart.symm, hbehind hsplit⟩
            · exact hbehind h

end TransposeRun

/-! ## The encoder and the runs -/

open TransposeRun

/-- The encoder is set to the run that the items from number `index` on begin in, and the
runs to come are those behind it. -/
inductive Encoder.Ready (encoder : Encoder) (index : Nat) (items : List TiedItem) : Prop
  | unpitched (hsplit : splitFrom index none items = []) (hruns : encoder.runs = [])
  | pitched {current : Option (TransposeRun × Int)} {first : TransposeRun}
      {later : List TransposeRun}
      (hfits : ∀ begun ∈ current, begun.2 ≤ begun.1.low + widest)
      (hsplit : splitFrom index current items = first :: later)
      (htranspose : encoder.transpose = first.low) (hruns : encoder.runs = later)

namespace Encoder

variable {encoder : Encoder} {index : Nat} {item : TiedItem} {items : List TiedItem}

theorem beginRun_of_lt (h : ∀ run ∈ encoder.runs, index < run.start) :
    encoder.beginRun index = ([], encoder) := by
  unfold beginRun
  split
  · next run later hruns =>
      have hrun := h run (by rw [hruns]; exact List.mem_cons_self)
      rw [if_neg (by omega)]
  · rfl

/-- An encoder that is set to the first run of the items behind `index` is ready for them, and
takes what its open run holds. -/
theorem ready_of_splitFrom
    {run first : TransposeRun} {high : Int} {later : List TransposeRun}
    (hfits : high ≤ run.low + widest)
    (hsplit : splitFrom (index + 1) (some (run, high)) items = first :: later)
    (htranspose : encoder.transpose = first.low) (hruns : encoder.runs = later) :
    encoder.Ready (index + 1) items ∧
      encoder.transpose ≤ run.low ∧ high ≤ encoder.transpose + widest := by
  obtain ⟨first', later', hsplit', -, hlow, hhigh⟩ :=
    exists_splitFrom (index + 1) run high items
  obtain ⟨rfl, rfl⟩ := List.cons.inj (hsplit.symm.trans hsplit')
  rw [htranspose]
  exact ⟨.pitched (by simpa using hfits) hsplit htranspose hruns, hlow, hhigh hfits⟩

/-- No run begins at an item without a pitch. -/
theorem Ready.beginRun_unpitched
    (h : encoder.Ready index (item :: items)) (hitem : item.pitch? = none) :
    (encoder.beginRun index).2.Ready (index + 1) items := by
  cases h with
  | unpitched hsplit hruns =>
      rw [splitFrom_cons_unpitched _ hitem] at hsplit
      rw [beginRun_of_lt (by simp [hruns])]
      exact .unpitched hsplit hruns
  | pitched hfits hsplit htranspose hruns =>
      rw [splitFrom_cons_unpitched _ hitem] at hsplit
      rw [beginRun_of_lt (hruns ▸ le_start_of_later hsplit)]
      exact .pitched hfits hsplit htranspose hruns

/-- At an item with a pitch the open run takes the pitch, or the next run begins with it. -/
theorem Ready.beginRun_pitched
    {pitch : Int} (h : encoder.Ready index (item :: items)) (hitem : item.pitch? = some pitch) :
    (encoder.beginRun index).2.Ready (index + 1) items ∧
      (encoder.beginRun index).2.transpose ≤ pitch ∧
        pitch ≤ (encoder.beginRun index).2.transpose + widest := by
  cases h with
  | unpitched hsplit hruns =>
      obtain ⟨first, later, hfirst, -⟩ := exists_splitFrom (index + 1) ⟨0, pitch⟩ pitch items
      rw [splitFrom_cons_first hitem, hfirst] at hsplit
      cases hsplit
  | @pitched current first later hfits hsplit htranspose hruns =>
      rcases current with _ | ⟨run, high⟩
      · rw [splitFrom_cons_first hitem] at hsplit
        rw [beginRun_of_lt (hruns ▸ le_start_of_later hsplit)]
        exact ready_of_splitFrom (le_add_widest pitch) hsplit htranspose hruns
      · rw [splitFrom_cons_pitched run high hitem] at hsplit
        split at hsplit
        · -- too wide for the open run, so the next run starts at this item
          obtain ⟨second, rest, hcons, hstart, -⟩ :=
            exists_splitFrom (index + 1) ⟨index, pitch⟩ pitch items
          obtain ⟨rfl, rfl⟩ := List.cons.inj hsplit
          have hbegin : (encoder.beginRun index).2 =
              { encoder with transpose := second.low, runs := rest } := by
            rw [Encoder.beginRun, hruns, hcons]
            simp [hstart]
          rw [hbegin]
          exact ready_of_splitFrom (le_add_widest pitch) hcons rfl rfl
        · next hnarrow =>
          rw [beginRun_of_lt (hruns ▸ le_start_of_later hsplit)]
          obtain ⟨hready, hlow, hhigh⟩ :=
            ready_of_splitFrom (by dsimp only; omega) hsplit htranspose hruns
          exact ⟨hready, hlow.trans (Int.min_le_right _ _), (Int.le_max_right _ _).trans hhigh⟩

/-- Once the run of an item has begun, the item's pitch is within it, and the encoder is
ready for the items behind. -/
theorem Ready.beginRun (h : encoder.Ready index (item :: items)) :
    (encoder.beginRun index).2.Ready (index + 1) items ∧
      ∀ pitch, item.pitch? = some pitch →
        (encoder.beginRun index).2.transpose ≤ pitch ∧
          pitch ≤ (encoder.beginRun index).2.transpose + widest := by
  refine ⟨?_, fun pitch hitem => (h.beginRun_pitched hitem).2⟩
  cases hitem : item.pitch? with
  | none => exact h.beginRun_unpitched hitem
  | some pitch => exact (h.beginRun_pitched hitem).1

theorem Ready.congr
    {next : Encoder} (h : encoder.Ready index items)
    (hkept : next.transpose = encoder.transpose ∧ next.runs = encoder.runs) :
    next.Ready index items := by
  obtain ⟨htranspose, hruns⟩ := hkept
  cases h with
  | unpitched hsplit hnone => exact .unpitched hsplit (hruns.trans hnone)
  | pitched hfits hsplit hlow hlater =>
      exact .pitched hfits hsplit (htranspose.trans hlow) (hruns.trans hlater)

/-- An encoder that is ready for items is ready for those behind once it has encoded some. -/
theorem Ready.encodeFrom
    {orchestra : Orchestra} {scope : String} {before rest : List TiedItem} {next : Encoder}
    {codes : List PatternCode} (h : encoder.Ready index (before ++ rest))
    (hcodes : orchestra.encodeFrom scope index encoder before = .ok (codes, next)) :
    next.Ready (index + before.length) rest := by
  induction before generalizing index encoder codes with
  | nil =>
      cases hcodes
      exact h
  | cons item before ih =>
      obtain ⟨itemCodes, middle, later, hitem, hlater, -⟩ := Orchestra.encodeFrom_cons hcodes
      have hmiddle := h.beginRun.1.congr (Orchestra.encodeItem_transpose hitem)
      have hrest := ih hmiddle hlater
      rw [List.length_cons, ← Nat.succ_add_eq_add_succ]
      exact hrest

end Encoder

end Chiptune
