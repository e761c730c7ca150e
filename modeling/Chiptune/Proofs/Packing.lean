import Chiptune.Output.Listing
import Mathlib.Data.List.Forall2

/-!
# Packing is sound, flat and complete

A sequence that has a place equals the slice it points at, the base of a place has no
place itself, and no two sequences without a place hold one another. Flatness comes
from the order of the search: a base is the last sequence that holds the needle, and
whatever holds the base holds the needle too.
-/

namespace Chiptune.Packing

/-! ## Occurrences -/

section Occurrences

variable {α : Type} [BEq α]

/-- The slice of `hay` at `offset` that is as long as `needle` equals `needle`. -/
def OccursAt (needle hay : List α) (offset : Nat) : Prop :=
  ((hay.drop offset).take needle.length == needle) = true

theorem occursAt_iff_eq
    [LawfulBEq α] {needle hay : List α} {offset : Nat} :
    OccursAt needle hay offset ↔ (hay.drop offset).take needle.length = needle :=
  beq_iff_eq

/-- Sequences are compared item by item. -/
theorem beq_iff_forall₂
    {first second : List α} :
    (first == second) = true ↔
      List.Forall₂ (fun a b => (a == b) = true) first second := by
  induction first generalizing second with
  | nil => cases second <;> simp
  | cons item first ih =>
      cases second with
      | nil => simp
      | cons other second =>
          rw [List.cons_beq_cons, Bool.and_eq_true, List.forall₂_cons, ih]

theorem OccursAt.length_le
    {needle hay : List α} {offset : Nat} (h : OccursAt needle hay offset) :
    needle.length ≤ hay.length - offset := by
  have hlength := (beq_iff_forall₂.mp h).length_eq
  rw [List.length_take, List.length_drop] at hlength
  omega

variable [PartialEquivBEq α]

theorem isPrefixOf_iff_occursAt
    (needle hay : List α) :
    needle.isPrefixOf hay = true ↔ OccursAt needle hay 0 := by
  unfold OccursAt
  rw [List.drop_zero]
  induction needle generalizing hay with
  | nil => simp
  | cons item needle ih =>
      cases hay with
      | nil => simp
      | cons other hay =>
          rw [List.isPrefixOf_cons_cons, List.length_cons, List.take_succ_cons,
            List.cons_beq_cons, Bool.and_eq_true, Bool.and_eq_true, ih, BEq.comm]

theorem forall₂_beq_trans
    {first second third : List α}
    (h : List.Forall₂ (fun a b => (a == b) = true) first second)
    (h' : List.Forall₂ (fun a b => (a == b) = true) second third) :
    List.Forall₂ (fun a b => (a == b) = true) first third := by
  induction h generalizing third with
  | nil => exact h'
  | cons hitem _ ih =>
      cases h' with
      | cons hitem' hrest => exact .cons (BEq.trans hitem hitem') (ih hrest)

/-- What holds a sequence holds every slice of it. -/
theorem OccursAt.trans
    {needle middle hay : List α} {offset start : Nat}
    (h : OccursAt needle middle offset) (h' : OccursAt middle hay start) :
    OccursAt needle hay (start + offset) := by
  have hlength := h.length_le
  have hslice : ((hay.drop (start + offset)).take needle.length) =
      (((hay.drop start).take middle.length).drop offset).take needle.length := by
    rw [List.drop_take, List.take_take, List.drop_drop, Nat.min_eq_left hlength]
  unfold OccursAt at h h' ⊢
  rw [beq_iff_forall₂] at h h' ⊢
  rw [hslice]
  exact forall₂_beq_trans (List.forall₂_take _ (List.forall₂_drop _ h')) h

/-- A sequence that occurs in one no longer than itself holds that one in turn. -/
theorem OccursAt.symm
    {needle hay : List α} {offset : Nat} (h : OccursAt needle hay offset)
    (hneedle : needle ≠ []) (hlength : hay.length ≤ needle.length) :
    OccursAt hay needle 0 := by
  have hle := h.length_le
  have hpos := List.length_pos_of_ne_nil hneedle
  obtain rfl : offset = 0 := by omega
  have hsame : needle.length = hay.length := by omega
  unfold OccursAt at h ⊢
  rw [List.drop_zero, hsame, List.take_length] at h
  rw [List.drop_zero, ← hsame, List.take_length]
  rw [beq_iff_forall₂] at h ⊢
  exact (h.imp fun _ _ hitem => BEq.symm hitem).flip

theorem occursAt_of_firstOffset?
    {needle hay : List α} {offset : Nat} (h : firstOffset? needle hay = some offset) :
    OccursAt needle hay offset := by
  induction hay generalizing offset with
  | nil =>
      cases needle with
      | nil => rfl
      | cons item needle => simp [firstOffset?] at h
  | cons item rest ih =>
      rw [firstOffset?] at h
      by_cases hprefix : needle.isPrefixOf (item :: rest) = true
      · rw [if_pos hprefix, Option.some.injEq] at h
        subst h
        exact (isPrefixOf_iff_occursAt needle _).mp hprefix
      · rw [if_neg hprefix] at h
        obtain ⟨later, hlater, rfl⟩ := Option.map_eq_some_iff.mp h
        exact ih hlater

theorem not_occursAt_of_firstOffset?
    {needle hay : List α} (h : firstOffset? needle hay = none) (offset : Nat) :
    ¬OccursAt needle hay offset := by
  induction hay generalizing offset with
  | nil =>
      intro hoccurs
      have hlength := hoccurs.length_le
      rw [List.length_nil, Nat.zero_sub, Nat.le_zero, List.length_eq_zero_iff] at hlength
      simp [firstOffset?, hlength] at h
  | cons item rest ih =>
      rw [firstOffset?] at h
      by_cases hprefix : needle.isPrefixOf (item :: rest) = true
      · rw [if_pos hprefix] at h
        cases h
      · rw [if_neg hprefix, Option.map_eq_none_iff] at h
        cases offset with
        | zero => exact fun hoccurs => hprefix ((isPrefixOf_iff_occursAt needle _).mpr hoccurs)
        | succ offset => exact ih h offset

end Occurrences

/-! ## The order of the search -/

section Order

variable {α : Type}

theorem mem_byLength
    {sequences : List (List α)} {key : Nat} :
    key ∈ byLength sequences ↔ key < sequences.length := by
  rw [byLength, (List.mergeSort_perm _ _).mem_iff, List.mem_range]

theorem exists_order
    {sequences : List (List α)} {key : Nat} (hkey : key < sequences.length) :
    ∃ before later, byLength sequences = before ++ key :: later :=
  List.append_of_mem (mem_byLength.mpr hkey)

/-- Sequences that stand in order of length stay in it. -/
theorem byLength_of_isSorted
    {sequences : List (List α)}
    (h : (List.range sequences.length).Pairwise fun i j =>
      (sequences.getD i []).length ≤ (sequences.getD j []).length) :
    byLength sequences = List.range sequences.length :=
  List.mergeSort_of_pairwise (h.imp decide_eq_true)

theorem nodup_byLength
    (sequences : List (List α)) :
    (byLength sequences).Nodup :=
  (List.mergeSort_perm _ _).nodup_iff.mpr List.nodup_range

/-- Later sequences are no shorter. -/
theorem pairwise_byLength
    (sequences : List (List α)) :
    (byLength sequences).Pairwise fun i j =>
      (sequences.getD i []).length ≤ (sequences.getD j []).length := by
  refine List.Pairwise.imp ?_ (List.pairwise_mergeSort ?_ ?_ (List.range sequences.length))
  · intro i j hle
    exact decide_eq_true_eq.mp hle
  · intro i j k hij hjk
    rw [decide_eq_true_eq] at hij hjk ⊢
    omega
  · intro i j
    rw [Bool.or_eq_true, decide_eq_true_eq, decide_eq_true_eq]
    omega

theorem getElem?_of_mem_byLength
    {sequences : List (List α)} {i : Nat} (hi : i ∈ byLength sequences) :
    sequences[i]? = some (sequences.getD i []) := by
  rw [mem_byLength] at hi
  rw [List.getD_eq_getElem?_getD, List.getElem?_eq_getElem hi, Option.getD_some]

end Order

/-! ## Places -/

section Places

variable {α : Type} [BEq α] {sequences : List (List α)}

/-- The place of a sequence among those behind it in the order. -/
def placeBehind (sequences : List (List α)) (key : Nat) (later : List Nat) : Option Place :=
  if (sequences.getD key []).isEmpty then none
  else find? sequences (sequences.getD key []) later.reverse

theorem lookup_places
    {key : Nat} {before later : List Nat} (hbefore : key ∉ before) :
    (places sequences (before ++ key :: later)).lookup key =
      some (placeBehind sequences key later) := by
  induction before with
  | nil => simp [places, placeBehind]
  | cons other before ih =>
      obtain ⟨hother, hrest⟩ := not_or.mp (mt List.mem_cons.mpr hbefore)
      rw [List.cons_append, places, List.lookup_cons, beq_false_of_ne hother]
      exact ih hrest

/-- Where a sequence stands in the order decides its place. -/
theorem pack_getElem?
    {key : Nat} {before later : List Nat}
    (horder : byLength sequences = before ++ key :: later) :
    (pack sequences)[key]? = some (placeBehind sequences key later) := by
  have hnodup := nodup_byLength sequences
  have hkey : key < sequences.length := by
    rw [← mem_byLength, horder]
    exact List.mem_append_right _ List.mem_cons_self
  rw [horder] at hnodup
  have hbefore : key ∉ before := by
    intro hmem
    exact (List.nodup_append.mp hnodup).2.2 key hmem key List.mem_cons_self rfl
  rw [pack, horder, List.getElem?_map, List.getElem?_range hkey, Option.map_some,
    lookup_places hbefore, Option.getD_some]

theorem length_pack
    (sequences : List (List α)) :
    (pack sequences).length = sequences.length := by
  simp [pack]

/-- A place found, with the order it was found in. -/
theorem order_of_pack
    {i : Nat} {place : Option Place} (h : (pack sequences)[i]? = some place) :
    ∃ before later, byLength sequences = before ++ i :: later ∧
      placeBehind sequences i later = place := by
  obtain ⟨hi, -⟩ := List.getElem?_eq_some_iff.mp h
  rw [length_pack] at hi
  obtain ⟨before, later, horder⟩ := exists_order hi
  rw [pack_getElem? horder, Option.some.injEq] at h
  exact ⟨before, later, horder, h⟩

variable [PartialEquivBEq α]

/-- A place is the last one behind that holds the sequence. -/
theorem placeBehind_eq_some
    {key : Nat} {later : List Nat} {place : Place}
    (h : placeBehind sequences key later = some place) :
    sequences.getD key [] ≠ [] ∧
      ∃ between behind, later = between ++ place.base :: behind ∧
        OccursAt (sequences.getD key []) (sequences.getD place.base []) place.offset ∧
        ∀ other ∈ behind, ∀ offset,
          ¬OccursAt (sequences.getD key []) (sequences.getD other []) offset := by
  unfold placeBehind at h
  by_cases hempty : (sequences.getD key []).isEmpty = true
  · rw [if_pos hempty] at h
    cases h
  · rw [if_neg hempty] at h
    refine ⟨fun hnil => hempty (List.isEmpty_iff.mpr hnil), ?_⟩
    obtain ⟨behind, base, between, hlater, hbase, hbehind⟩ :=
      List.findSome?_eq_some_iff.mp h
    obtain ⟨offset, hoffset, rfl⟩ := Option.map_eq_some_iff.mp hbase
    refine ⟨between.reverse, behind.reverse, ?_, occursAt_of_firstOffset? hoffset, ?_⟩
    · rw [← List.reverse_reverse later, hlater]
      simp
    · intro other hother
      have hnone := hbehind other (List.mem_reverse.mp hother)
      exact not_occursAt_of_firstOffset? (Option.map_eq_none_iff.mp hnone)

/-- A sequence that has no place occurs nowhere behind. -/
theorem placeBehind_eq_none
    {key : Nat} {later : List Nat} (h : placeBehind sequences key later = none)
    (hneedle : sequences.getD key [] ≠ []) {other : Nat} (hother : other ∈ later)
    (offset : Nat) :
    ¬OccursAt (sequences.getD key []) (sequences.getD other []) offset := by
  unfold placeBehind at h
  rw [if_neg (mt List.isEmpty_iff.mp hneedle)] at h
  have hnone := List.findSome?_eq_none_iff.mp h other (List.mem_reverse.mpr hother)
  exact not_occursAt_of_firstOffset? (Option.map_eq_none_iff.mp hnone) offset

/-- The base of a place has none itself, for whatever holds the base holds the
sequence. -/
theorem placeBehind_flat
    {key : Nat} {later : List Nat} {place : Place}
    (h : placeBehind sequences key later = some place) :
    ∃ between behind, later = between ++ place.base :: behind ∧
      placeBehind sequences place.base behind = none := by
  obtain ⟨-, between, behind, hlater, hoccurs, hbehind⟩ := placeBehind_eq_some h
  refine ⟨between, behind, hlater, ?_⟩
  cases hbase : placeBehind sequences place.base behind with
  | none => rfl
  | some next =>
      obtain ⟨-, nearer, farther, rfl, hnext, -⟩ := placeBehind_eq_some hbase
      exact absurd (hoccurs.trans hnext)
        (hbehind next.base (List.mem_append_right _ List.mem_cons_self) _)

/-- A sequence does not occur in one before it that has no place: they would be of
one length, and the one before would have been found in it. -/
theorem not_occursAt_before
    {first second : Nat} {before later : List Nat}
    (horder : byLength sequences = before ++ first :: later) (hsecond : second ∈ later)
    (hfirst : placeBehind sequences first later = none)
    (hneedle : sequences.getD second [] ≠ []) (offset : Nat) :
    ¬OccursAt (sequences.getD second []) (sequences.getD first []) offset := by
  intro hoccurs
  have hsorted := pairwise_byLength sequences
  rw [horder, List.pairwise_append, List.pairwise_cons] at hsorted
  have hlength := hsorted.2.1.1 second hsecond
  have hpos := List.length_pos_of_ne_nil hneedle
  have hlonger := hoccurs.length_le
  have hnonempty : sequences.getD first [] ≠ [] := by
    intro hnil
    rw [hnil, List.length_nil] at hlonger
    omega
  exact placeBehind_eq_none hfirst hnonempty hsecond 0 (hoccurs.symm hneedle hlength)

/-- Places that leave nothing out: each sequence without one is needed, and each place
points at a sequence without one. -/
structure IsPacking (sequences : List (List α)) (places : List (Option Place)) : Prop where
  length_eq : places.length = sequences.length
  base_ne : ∀ (i : Nat) (place : Place), places[i]? = some (some place) → place.base ≠ i
  occursAt : ∀ (i : Nat) (place : Place), places[i]? = some (some place) →
    ∃ needle hay, sequences[i]? = some needle ∧ sequences[place.base]? = some hay ∧
      OccursAt needle hay place.offset
  flat : ∀ (i : Nat) (place : Place), places[i]? = some (some place) →
    places[place.base]? = some none
  complete : ∀ (i j : Nat) needle hay, i ≠ j →
    sequences[i]? = some needle → sequences[j]? = some hay →
      places[i]? = some none → places[j]? = some none →
        needle ≠ [] → ∀ offset, ¬OccursAt needle hay offset
  empty : ∀ i : Nat, sequences[i]? = some [] → places[i]? = some none

theorem isPacking_pack
    (sequences : List (List α)) :
    IsPacking sequences (pack sequences) where
  length_eq := length_pack sequences
  base_ne := by
    intro i place h
    obtain ⟨before, later, horder, hplace⟩ := order_of_pack h
    obtain ⟨-, between, behind, rfl, -, -⟩ := placeBehind_eq_some hplace
    have hnodup := nodup_byLength sequences
    rw [horder] at hnodup
    have hi := (List.nodup_cons.mp (List.nodup_append.mp hnodup).2.1).1
    rintro rfl
    exact hi (List.mem_append_right _ List.mem_cons_self)
  occursAt := by
    intro i place h
    obtain ⟨before, later, horder, hplace⟩ := order_of_pack h
    obtain ⟨-, between, behind, rfl, hoccurs, -⟩ := placeBehind_eq_some hplace
    have hi : i ∈ byLength sequences := by simp [horder]
    have hbase : place.base ∈ byLength sequences := by simp [horder]
    exact ⟨_, _, getElem?_of_mem_byLength hi, getElem?_of_mem_byLength hbase, hoccurs⟩
  flat := by
    intro i place h
    obtain ⟨before, later, horder, hplace⟩ := order_of_pack h
    obtain ⟨between, behind, rfl, hbase⟩ := placeBehind_flat hplace
    have hsplit : byLength sequences = (before ++ i :: between) ++ place.base :: behind := by
      rw [horder, List.append_assoc, List.cons_append]
    rw [pack_getElem? hsplit, hbase]
  complete := by
    intro i j needle hay hne hneedle hhay hi hj hnonempty offset
    obtain ⟨before, later, horder, hplace⟩ := order_of_pack hi
    have hneedle' : sequences.getD i [] = needle := by
      rw [List.getD_eq_getElem?_getD, hneedle, Option.getD_some]
    have hhay' : sequences.getD j [] = hay := by
      rw [List.getD_eq_getElem?_getD, hhay, Option.getD_some]
    subst hneedle' hhay'
    have hmem : j ∈ before ++ i :: later := by
      rw [← horder, mem_byLength]
      exact (List.getElem?_eq_some_iff.mp hhay).1
    -- Behind `i` the search from `i` would find `j`; before it, the one from `j`.
    rcases List.mem_append.mp hmem with hbefore | hlater
    · obtain ⟨first, between, rfl⟩ := List.append_of_mem hbefore
      have hsplit : byLength sequences = first ++ j :: (between ++ i :: later) := by
        rw [horder, List.append_assoc, List.cons_append]
      rw [pack_getElem? hsplit, Option.some.injEq] at hj
      exact not_occursAt_before hsplit (List.mem_append_right _ List.mem_cons_self) hj
        hnonempty offset
    · rcases List.mem_cons.mp hlater with hsame | hlater
      · exact absurd hsame.symm hne
      · exact placeBehind_eq_none hplace hnonempty hlater offset
  empty := by
    intro i h
    obtain ⟨hi, -⟩ := List.getElem?_eq_some_iff.mp h
    obtain ⟨before, later, horder⟩ := exists_order hi
    rw [pack_getElem? horder, placeBehind, List.getD_eq_getElem?_getD, h]
    rfl

end Places

end Chiptune.Packing

/-! ## Aliases of a table -/

namespace Chiptune.Assembly

open Packing

/-- The data blocks of entries. -/
def dataBlocks (entries : List Entry) : List DataBlock := entries.filterMap (·.data)

/-- The labels of the data blocks of entries. -/
def dataLabels (entries : List Entry) : List String := (dataBlocks entries).map (·.label)

theorem packableBlocks_eq
    (entries : List Entry) :
    packableBlocks entries =
      (dataBlocks entries).filterMap fun block =>
        block.packable.map fun bytes => (block.label, bytes) := by
  rw [packableBlocks, dataBlocks, List.filterMap_filterMap]
  congr 1
  funext entry
  cases entry.data <;> rfl

theorem exists_block_of_mem_packableBlocks
    {entries : List Entry} {label : String} {bytes : List Nat}
    (h : (label, bytes) ∈ packableBlocks entries) :
    ∃ block ∈ dataBlocks entries, block.label = label ∧ block.packable = some bytes := by
  rw [packableBlocks_eq] at h
  obtain ⟨block, hblock, hpackable⟩ := List.mem_filterMap.mp h
  obtain ⟨found, hfound, hpair⟩ := Option.map_eq_some_iff.mp hpackable
  cases hpair
  exact ⟨block, hblock, rfl, hfound⟩

/-- Blocks with distinct labels keep them when only the packable ones are kept. -/
theorem nodup_packableBlocks
    {entries : List Entry} (h : (dataLabels entries).Nodup) :
    ((packableBlocks entries).map (·.1)).Nodup := by
  have hsublist : ∀ blocks : List DataBlock,
      ((blocks.filterMap fun block =>
        block.packable.map fun bytes => (block.label, bytes)).map (·.1)).Sublist
          (blocks.map (·.label)) := by
    intro blocks
    induction blocks with
    | nil => exact .slnil
    | cons block blocks ih =>
        cases hpackable : block.packable with
        | none =>
            simp only [List.filterMap_cons, hpackable, Option.map_none, List.map_cons]
            exact .cons _ ih
        | some bytes =>
            simp only [List.filterMap_cons, hpackable, Option.map_some, List.map_cons]
            exact .cons_cons _ ih
  rw [packableBlocks_eq]
  exact h.sublist (hsublist _)

/-- An alias comes from a place that packing found. -/
theorem exists_place_of_mem_tableAliases
    {entries : List Entry} {label : String} {found : Alias}
    (h : (label, found) ∈ tableAliases entries) :
    ∃ (i : Nat) (place : Place) (bytes baseBytes : List Nat),
      (pack ((packableBlocks entries).map (·.2)))[i]? = some (some place) ∧
        (packableBlocks entries)[i]? = some (label, bytes) ∧
        (packableBlocks entries)[place.base]? = some (found.base, baseBytes) ∧
        found.offset = place.offset ∧ OccursAt bytes baseBytes place.offset := by
  obtain ⟨⟨⟨blockLabel, bytes⟩, place?⟩, hzip, hfound⟩ := List.mem_filterMap.mp h
  obtain ⟨i, hi⟩ := List.mem_iff_getElem?.mp hzip
  obtain ⟨hblock, hplace⟩ := List.getElem?_zip_eq_some.mp hi
  obtain ⟨place, rfl, hpair⟩ := Option.map_eq_some_iff.mp hfound
  cases hpair
  obtain ⟨needle, hay, hneedle, hhay, hoccurs⟩ := (isPacking_pack _).occursAt i place hplace
  rw [List.getElem?_map, hblock] at hneedle
  cases hneedle
  rw [List.getElem?_map] at hhay
  obtain ⟨⟨baseLabel, baseBytes⟩, hbase, rfl⟩ := Option.map_eq_some_iff.mp hhay
  refine ⟨i, place, bytes, baseBytes, hplace, hblock, ?_, rfl, hoccurs⟩
  rw [hbase]
  rfl

/-- The base of an alias has no alias, if the labels are distinct. -/
theorem not_mem_tableAliases_base
    {entries : List Entry} (hlabels : (dataLabels entries).Nodup)
    {label : String} {found : Alias} (h : (label, found) ∈ tableAliases entries)
    (other : Alias) :
    (found.base, other) ∉ tableAliases entries := by
  intro hother
  obtain ⟨i, place, -, baseBytes, hplace, -, hbase, -, -⟩ :=
    exists_place_of_mem_tableAliases h
  obtain ⟨j, otherPlace, bytes, -, hotherPlace, hblock, -, -, -⟩ :=
    exists_place_of_mem_tableAliases hother
  have hsame : ((packableBlocks entries).map (·.1))[place.base]? =
      ((packableBlocks entries).map (·.1))[j]? := by
    rw [List.getElem?_map, List.getElem?_map, hbase, hblock]
    rfl
  have hlt : place.base < ((packableBlocks entries).map (·.1)).length := by
    rw [List.length_map]
    exact (List.getElem?_eq_some_iff.mp hbase).1
  have hj := (List.getElem?_inj hlt (nodup_packableBlocks hlabels)).mp hsame
  have hflat := (isPacking_pack _).flat i place hplace
  rw [hj, hotherPlace] at hflat
  cases hflat

/-- The alias of `block` points into `base`, which `assembly` writes in full and which
holds the bytes of `block` at the offset. -/
structure PointsInto (assembly : Assembly) (entries : List Entry) (found : Alias)
    (block base : DataBlock) : Prop where
  block_mem : block ∈ dataBlocks entries
  base_mem : base ∈ dataBlocks entries
  base_label : base.label = found.base
  holds : ∃ bytes baseBytes, block.packable = some bytes ∧ base.packable = some baseBytes ∧
    (baseBytes.drop found.offset).take bytes.length = bytes
  written : Output.dataLines assembly base =
    (base.label ++ ":") :: Output.blockLines base

/-- The assembly gives labels of the entries no aliases but those found among the
entries. -/
def Packs (assembly : Assembly) (entries : List Entry) : Prop :=
  ∀ label ∈ dataLabels entries, ∀ found,
    (label, found) ∈ assembly.aliases → (label, found) ∈ tableAliases entries

/-- Every alias of a table with distinct labels points into a block written in full. -/
theorem exists_pointsInto
    {assembly : Assembly} {entries : List Entry} (hpacks : assembly.Packs entries)
    (hlabels : (dataLabels entries).Nodup)
    {label : String} {found : Alias} (h : (label, found) ∈ tableAliases entries) :
    ∃ block base, block.label = label ∧ assembly.PointsInto entries found block base := by
  obtain ⟨i, place, bytes, baseBytes, -, hi, hbasei, hoffset, hoccurs⟩ :=
    exists_place_of_mem_tableAliases h
  obtain ⟨block, hblock, hlabel, hbytes⟩ :=
    exists_block_of_mem_packableBlocks (List.mem_of_getElem? hi)
  obtain ⟨base, hbase, hbaseLabel, hbaseBytes⟩ :=
    exists_block_of_mem_packableBlocks (List.mem_of_getElem? hbasei)
  refine ⟨block, base, hlabel, hblock, hbase, hbaseLabel, ⟨bytes, baseBytes, hbytes,
    hbaseBytes, ?_⟩, ?_⟩
  · rw [hoffset]
    exact occursAt_iff_eq.mp hoccurs
  · have hnone : assembly.alias? base.label = none := by
      refine List.lookup_eq_none_iff.mpr ?_
      rintro ⟨other, otherFound⟩ hmem
      rw [bne_iff_ne]
      rintro rfl
      have hother := hpacks base.label (List.mem_map_of_mem hbase) otherFound hmem
      rw [hbaseLabel] at hother
      exact not_mem_tableAliases_base hlabels h otherFound hother
    rw [Output.dataLines, hnone]

/-! ## Aliases of a score -/

theorem mem_setAlias
    {aliases : List (String × Alias)} {entry pair : String × Alias}
    (h : pair ∈ setAlias aliases entry) :
    pair = entry ∨ pair ∈ aliases := by
  rcases List.mem_cons.mp h with hentry | hold
  · exact Or.inl hentry
  · exact Or.inr (List.mem_filter.mp hold).1

theorem mem_foldl_setAlias
    {aliases entries : List (String × Alias)} {pair : String × Alias}
    (h : pair ∈ entries.foldl setAlias aliases) :
    pair ∈ aliases ∨ pair ∈ entries := by
  induction entries generalizing aliases with
  | nil => exact Or.inl h
  | cons entry entries ih =>
      rcases ih h with hset | hlater
      · rcases mem_setAlias hset with rfl | hold
        · exact Or.inr List.mem_cons_self
        · exact Or.inl hold
      · exact Or.inr (List.mem_cons_of_mem entry hlater)

theorem mem_dataLabels_of_mem_tableAliases
    {entries : List Entry} {label : String} {found : Alias}
    (h : (label, found) ∈ tableAliases entries) :
    label ∈ dataLabels entries := by
  obtain ⟨i, place, bytes, -, -, hi, -, -, -⟩ := exists_place_of_mem_tableAliases h
  obtain ⟨block, hblock, rfl, -⟩ :=
    exists_block_of_mem_packableBlocks (List.mem_of_getElem? hi)
  exact List.mem_map_of_mem hblock

theorem base_mem_dataLabels_of_mem_tableAliases
    {entries : List Entry} {label : String} {found : Alias}
    (h : (label, found) ∈ tableAliases entries) :
    found.base ∈ dataLabels entries := by
  obtain ⟨i, place, -, baseBytes, -, -, hbase, -, -⟩ := exists_place_of_mem_tableAliases h
  obtain ⟨base, hblock, hlabel, -⟩ :=
    exists_block_of_mem_packableBlocks (List.mem_of_getElem? hbase)
  exact hlabel ▸ List.mem_map_of_mem hblock

/-- The entries of the sound effects of a score. -/
def sfxEntries (score : Score) : List Entry := score.sfx.entries.map (·.entry)

/-- The entries of the instruments of a score. -/
def instrumentEntries (score : Score) : List Entry := score.instruments.entries.map (·.entry)

theorem mem_dataLabels_sfxEntries
    {score : Score} {label : String} (h : label ∈ dataLabels (sfxEntries score)) :
    ∃ rest, label = "PEDAT_" ++ rest := by
  obtain ⟨block, hblock, rfl⟩ := List.mem_map.mp h
  obtain ⟨entry, hentry, hdata⟩ := List.mem_filterMap.mp hblock
  obtain ⟨effect, -, rfl⟩ := List.mem_map.mp hentry
  cases hdata
  exact ⟨_, rfl⟩

theorem mem_dataLabels_instrumentEntries
    {score : Score} {label : String} (h : label ∈ dataLabels (instrumentEntries score)) :
    ∃ rest, label = "PIDAT_" ++ rest := by
  obtain ⟨block, hblock, rfl⟩ := List.mem_map.mp h
  obtain ⟨entry, hentry, hdata⟩ := List.mem_filterMap.mp hblock
  obtain ⟨instrument, -, rfl⟩ := List.mem_map.mp hentry
  simp only [Instrument.entry] at hdata
  split at hdata
  · cases hdata
    exact ⟨_, rfl⟩
  · cases hdata

/-- Sound effects and instruments never share a label. -/
theorem dataLabels_disjoint
    {score : Score} {label : String} (hsfx : label ∈ dataLabels (sfxEntries score))
    (hinstrument : label ∈ dataLabels (instrumentEntries score)) :
    False := by
  obtain ⟨first, rfl⟩ := mem_dataLabels_sfxEntries hsfx
  obtain ⟨second, hsecond⟩ := mem_dataLabels_instrumentEntries hinstrument
  have hchars := congrArg String.toList hsecond
  simp at hchars

theorem aliases_ofScore
    {score : Score} {diagnostics : Diagnostics} {assembly : Assembly}
    (h : ofScore score diagnostics = .ok assembly) :
    assembly.aliases =
      (tableAliases (sfxEntries score) ++
        tableAliases (instrumentEntries score)).foldl setAlias [] := by
  simp only [ofScore, bind, Except.bind] at h
  split at h
  · cases h
  · split at h
    · cases h
    · split at h
      · cases h
      · cases h
        rfl

/-- An assembled score packs its sound effects and its instruments. -/
theorem packs_ofScore
    {score : Score} {diagnostics : Diagnostics} {assembly : Assembly}
    (h : ofScore score diagnostics = .ok assembly) :
    assembly.Packs (sfxEntries score) ∧ assembly.Packs (instrumentEntries score) := by
  have hmem : ∀ pair ∈ assembly.aliases,
      pair ∈ tableAliases (sfxEntries score) ∨
        pair ∈ tableAliases (instrumentEntries score) := by
    intro pair hpair
    rw [aliases_ofScore h] at hpair
    rcases mem_foldl_setAlias hpair with hnone | hfound
    · cases hnone
    · exact List.mem_append.mp hfound
  constructor
  · intro label hlabel found hpair
    rcases hmem _ hpair with hsfx | hinstrument
    · exact hsfx
    · exact (dataLabels_disjoint hlabel
        (mem_dataLabels_of_mem_tableAliases hinstrument)).elim
  · intro label hlabel found hpair
    rcases hmem _ hpair with hsfx | hinstrument
    · exact (dataLabels_disjoint (mem_dataLabels_of_mem_tableAliases hsfx) hlabel).elim
    · exact hinstrument

/-- Packing is sound, flat and complete, and every alias that it gives to a table with
distinct labels points into a block that is written in full and holds the bytes of the
aliased block; an assembled score packs its sound effects and its instruments so. -/
theorem isPacking_and_pointsInto
    {α : Type} [BEq α] [PartialEquivBEq α] (sequences : List (List α)) :
    IsPacking sequences (pack sequences) ∧
      (∀ (assembly : Assembly) (entries : List Entry),
        assembly.Packs entries → (dataLabels entries).Nodup →
          ∀ label found, (label, found) ∈ tableAliases entries →
            ∃ block base, block.label = label ∧
              assembly.PointsInto entries found block base) ∧
      (∀ score diagnostics assembly, ofScore score diagnostics = .ok assembly →
        assembly.Packs (sfxEntries score) ∧ assembly.Packs (instrumentEntries score)) := by
  refine ⟨isPacking_pack sequences, ?_, ?_⟩
  · intro assembly entries hpacks hlabels label found hmem
    exact exists_pointsInto hpacks hlabels hmem
  · intro score diagnostics assembly hassembly
    exact packs_ofScore hassembly

/-- An instrument with the given volumes. -/
def plucked (name : String) (volumes : List Nat) : Instrument :=
  { Instrument.blank name ⟨"score", 1⟩ with
    envelope := { Envelope.blank with volume := ⟨some (volumes, ⟨"score", 2⟩)⟩ } }

/-- A score of two instruments whose attacks overlap. -/
def pluckedScore : Score :=
  { Score.empty with
    instruments := ⟨[plucked "short" [8, 6, 4], plucked "long" [12, 8, 6, 4]]⟩ }

/-- The attack of the short instrument lies in that of the long one. -/
theorem isPacking_and_pointsInto_plucked :
    ∃ assembly, ofScore pluckedScore default = .ok assembly ∧
      IsPacking [[7], [7, 8], [6, 6, 7, 8, 9], [], [7, 8]]
        (pack [[7], [7, 8], [6, 6, 7, 8, 9], [], [7, 8]]) ∧
      ∃ block base, block.label = "PIDAT_short" ∧
        assembly.PointsInto (instrumentEntries pluckedScore) ⟨"PIDAT_long", 1⟩ block base := by
  obtain ⟨hpacking, hpoints, hpacks⟩ :=
    isPacking_and_pointsInto [[7], [7, 8], [6, 6, 7, 8, 9], [], [7, 8]]
  have hassembly : ∃ assembly, ofScore pluckedScore default = .ok assembly := ⟨_, rfl⟩
  obtain ⟨assembly, hassembly⟩ := hassembly
  have hlabels : dataLabels (instrumentEntries pluckedScore) =
      ["PIDAT_short", "PIDAT_long"] := rfl
  have hblocks : packableBlocks (instrumentEntries pluckedScore) =
      [("PIDAT_short", [152, 150]), ("PIDAT_long", [156, 152, 150])] := rfl
  have haliases : tableAliases (instrumentEntries pluckedScore) =
      [("PIDAT_short", ⟨"PIDAT_long", 1⟩)] := by
    rw [tableAliases, hblocks, pack, byLength_of_isSorted (by decide)]
    rfl
  refine ⟨assembly, hassembly, hpacking, ?_⟩
  refine hpoints assembly _ (hpacks _ _ _ hassembly).2 ?_ "PIDAT_short" _ ?_
  · rw [hlabels]
    decide
  · rw [haliases]
    exact List.mem_singleton.mpr rfl

end Chiptune.Assembly
