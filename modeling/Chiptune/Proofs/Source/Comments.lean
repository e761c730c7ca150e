import Chiptune.Proofs.Source.Lines
import Mathlib.Data.List.Basic

/-!
# Comments

A comment opens at two slashes, or at a `#` that begins a word. Words are cut at every blank,
but a `#` is only looked at behind an ASCII blank. So the statements of a source are the words
before the comments of its lines, exactly if every `#` behind another blank is inside of a
comment that opened before it.
-/

namespace Chiptune.Statement

/-- Whether a comment opens between two parts of a line: at two slashes, or at a `#` that stands
first in the line or behind one of the blanks. -/
def opens (blank : Char → Bool) (before after : List Char) : Bool :=
  ['/', '/'].isPrefixOf after || after.head? == some '#' && before.getLast?.all blank

/-- The first place of a line at which a comment opens, or else its end. -/
def commentPlace (blank : Char → Bool) (line : List Char) : Nat :=
  (List.range line.length).findIdx fun n => opens blank (line.take n) (line.drop n)

/-- The words of a line before its comment. -/
def cutWords (blank : Char → Bool) (line : List Char) : List String :=
  (Text.runs (line.take (commentPlace blank line))).map String.ofList

/-- The statements of lines, numbered from one, if each line has the given words. -/
def numbered (file : String) (words : List Char → List String) (lines : List (List Char)) :
    List Statement :=
  (lines.zipIdx 1).filterMap fun (line, number) =>
    if words line = [] then none else some ⟨⟨file, number⟩, words line⟩

/-- Every `#` behind a blank that is not an ASCII blank is inside of a comment. -/
def IsGuarded (line : List Char) : Prop :=
  ∀ before blank after, line = before ++ blank :: '#' :: after → Text.isBlank blank = true →
    isAsciiBlank blank = false → commentPlace Text.isBlank line ≤ before.length

/-! ## The place of a comment -/

section Place

variable {blank : Char → Bool} {line before after : List Char}

theorem opens_iff :
    opens blank before after = true ↔
      (∃ rest, after = '/' :: '/' :: rest) ∨
        (∃ rest, after = '#' :: rest) ∧ before.getLast?.all blank = true := by
  have hslashes : ['/', '/'].isPrefixOf after = true ↔ ∃ rest, after = '/' :: '/' :: rest := by
    rw [List.isPrefixOf_iff_prefix]
    exact ⟨fun ⟨rest, h⟩ => ⟨rest, h.symm⟩, fun ⟨rest, h⟩ => ⟨rest, h.symm⟩⟩
  simp only [opens, Bool.or_eq_true, Bool.and_eq_true, beq_iff_eq, hslashes,
    List.head?_eq_some_iff]

theorem commentPlace_le (blank : Char → Bool) (line : List Char) :
    commentPlace blank line ≤ line.length := by
  have hle : commentPlace blank line ≤ (List.range line.length).length := List.findIdx_le_length
  rwa [List.length_range] at hle

theorem opens_eq_false_of_lt (h : before.length < commentPlace blank (before ++ after)) :
    opens blank before after = false := by
  have hnone := List.not_of_lt_findIdx h
  rwa [List.getElem_range, List.take_left, List.drop_left] at hnone

theorem opens_commentPlace (h : commentPlace blank line < line.length) :
    opens blank (line.take (commentPlace blank line)) (line.drop (commentPlace blank line)) =
      true := by
  unfold commentPlace at h ⊢
  have hfound := List.findIdx_getElem (w := Nat.lt_of_lt_of_eq h List.length_range.symm)
  rwa [List.getElem_range] at hfound

/-- A comment opens at a place or before it. -/
theorem commentPlace_le_of_opens (h : opens blank before after = true) :
    commentPlace blank (before ++ after) ≤ before.length := by
  refine Nat.le_of_not_lt fun hlate => ?_
  rw [opens_eq_false_of_lt hlate] at h
  cases h

/-- A character is read if no comment opens at it. -/
theorem length_concat_le_commentPlace {c : Char}
    (hread : before.length ≤ commentPlace blank (before ++ c :: after))
    (h : opens blank before (c :: after) = false) :
    (before ++ [c]).length ≤ commentPlace blank (before ++ [c] ++ after) := by
  have hline : before ++ [c] ++ after = before ++ c :: after := by simp
  rw [hline, List.length_append, List.length_singleton]
  refine Nat.lt_of_le_of_ne hread fun hplace => ?_
  have hlength : before.length < (before ++ c :: after).length := by simp
  have hopens := opens_commentPlace (hplace ▸ hlength)
  rw [← hplace, List.take_left, List.drop_left, h] at hopens
  cases hopens

theorem take_commentPlace (hread : before.length ≤ commentPlace blank (before ++ after))
    (h : after = [] ∨ opens blank before after = true) :
    (before ++ after).take (commentPlace blank (before ++ after)) = before := by
  have hstop : commentPlace blank (before ++ after) ≤ before.length := by
    rcases h with rfl | hopens
    · rw [List.append_nil]
      exact commentPlace_le blank before
    · exact commentPlace_le_of_opens hopens
  rw [Nat.le_antisymm hstop hread, List.take_left]

/-- A comment that is seen by other blanks as well opens no later by them. -/
theorem commentPlace_le_commentPlace {other : Char → Bool}
    (h : ∀ before after, line = before ++ after → commentPlace blank line = before.length →
      opens blank before after = true → opens other before after = true) :
    commentPlace other line ≤ commentPlace blank line := by
  rcases Nat.lt_or_ge (commentPlace blank line) line.length with hlt | hge
  · have hlength : (line.take (commentPlace blank line)).length = commentPlace blank line := by
      rw [List.length_take]
      omega
    have hopens := h _ _ (List.take_append_drop _ line).symm hlength.symm (opens_commentPlace hlt)
    have hle := commentPlace_le_of_opens hopens
    rwa [List.take_append_drop, hlength] at hle
  · exact Nat.le_trans (commentPlace_le other line) hge

end Place

/-! ## Reading up to the comment -/

theorem isBlank_of_isAsciiBlank {c : Char} (h : isAsciiBlank c = true) :
    Text.isBlank c = true := by
  simp only [isAsciiBlank, Bool.or_eq_true, beq_iff_eq] at h
  rcases h with (((rfl | rfl) | rfl) | rfl) | rfl <;> decide

/-- A line is read up to the first place at which a comment opens. The part `before` has been
read, and `fresh` says whether a `#` behind it opens a comment. -/
theorem append_uncommentedFrom
    (fresh : Bool) (before after : List Char)
    (hfresh : before.getLast?.all isAsciiBlank = fresh)
    (hread : before.length ≤ commentPlace isAsciiBlank (before ++ after)) :
    (before ++ after).take (commentPlace isAsciiBlank (before ++ after)) =
      before ++ uncommentedFrom fresh after := by
  fun_induction uncommentedFrom fresh after generalizing before with
  | case1 fresh => rw [take_commentPlace hread (.inl rfl), List.append_nil]
  | case2 rest =>
      have hopens : opens isAsciiBlank before ('#' :: rest) = true := by simp [opens, hfresh]
      rw [take_commentPlace hread (.inr hopens), List.append_nil]
  | case3 fresh rest hsharp ih =>
      have hclosed : opens isAsciiBlank before ('#' :: rest) = false := by
        simp [opens, List.isPrefixOf, hfresh, hsharp]
      have hrest := ih (before ++ ['#']) (by simp; decide)
        (length_concat_le_commentPlace hread hclosed)
      simpa using hrest
  | case4 fresh rest =>
      have hopens : opens isAsciiBlank before ('/' :: '/' :: rest) = true := by simp [opens]
      rw [take_commentPlace hread (.inr hopens), List.append_nil]
  | case5 fresh c rest hhash hslash ih =>
      have hclosed : opens isAsciiBlank before (c :: rest) = false := by
        refine Bool.eq_false_iff.mpr fun hopens => ?_
        rcases opens_iff.mp hopens with ⟨tail, htail⟩ | ⟨⟨tail, htail⟩, -⟩
        · exact hslash tail (List.cons.inj htail).1 (List.cons.inj htail).2
        · exact hhash (List.cons.inj htail).1
      have hrest := ih (before ++ [c]) (by simp) (length_concat_le_commentPlace hread hclosed)
      simpa using hrest

theorem uncommented_eq_take (line : List Char) :
    uncommented line = line.take (commentPlace isAsciiBlank line) :=
  (append_uncommentedFrom true [] line rfl (Nat.zero_le _)).symm

theorem ofLines_eq_filterMap (file : String) (number : Nat) (lines : List (List Char)) :
    ofLines file number lines =
      (lines.zipIdx number).filterMap fun (line, number) =>
        if cutWords isAsciiBlank line = [] then none
        else some ⟨⟨file, number⟩, cutWords isAsciiBlank line⟩ := by
  induction lines generalizing number with
  | nil => rfl
  | cons line rest ih =>
      have hwords : lineWords line = cutWords isAsciiBlank line := by
        rw [lineWords, uncommented_eq_take, cutWords]
      rw [ofLines, hwords, ih, List.zipIdx_cons]
      cases hcut : cutWords isAsciiBlank line with
      | nil => simp [hcut]
      | cons word words => simp [hcut]

theorem ofSource_eq_numbered (file source : String) :
    ofSource file source = numbered file (cutWords isAsciiBlank) (source.toList.splitOn '\n') :=
  ofLines_eq_filterMap file 1 _

theorem mem_numbered {file : String} {words : List Char → List String}
    {lines : List (List Char)} {statement : Statement} (h : statement ∈ numbered file words lines) :
    ∃ line ∈ lines, statement.words = words line := by
  obtain ⟨⟨line, number⟩, hline, hstatement⟩ := List.mem_filterMap.mp h
  dsimp only at hstatement
  split at hstatement
  · cases hstatement
  · exact ⟨line, List.fst_mem_of_mem_zipIdx hline, by rw [← Option.some.inj hstatement]⟩

theorem exists_mem_numbered {words : List Char → List String} {lines : List (List Char)}
    {line : List Char} (file : String) (h : line ∈ lines) (hwords : words line ≠ []) :
    ∃ statement ∈ numbered file words lines, statement.words = words line := by
  obtain ⟨n, hline⟩ := List.mem_iff_getElem?.mp h
  have hnumber : (line, n + 1) ∈ lines.zipIdx 1 := by
    rw [List.mk_mem_zipIdx_iff_le_and_getElem?_sub]
    exact ⟨Nat.le_add_left 1 n, hline⟩
  exact ⟨_, List.mem_filterMap.mpr ⟨_, hnumber, if_neg hwords⟩, rfl⟩

/-! ## Words of the part before the comment -/

/-- A part begins the whole or stands behind a separator. -/
theorem exists_append_of_mem_splitOnP {α : Type} {p : α → Bool} {items part : List α}
    (h : part ∈ items.splitOnP p) :
    ∃ before after, items = before ++ part ++ after ∧ before.getLast?.all p = true := by
  by_cases hnone : ∀ item ∈ items, p item = false
  · rw [List.splitOnP_eq_singleton hnone, List.mem_singleton] at h
    exact ⟨[], [], by simp [h]⟩
  · obtain ⟨item, hitem, hp⟩ : ∃ item ∈ items, p item = true := by simpa using hnone
    obtain ⟨sep, first, rest, hfirst, hsep, hitems, -⟩ := List.exists_of_eraseP hitem hp
    have hsplit := List.splitOnP_append_cons_of_forall_mem
      (fun item hitem => by simpa using hfirst item hitem) sep hsep rest
    rw [hitems, hsplit] at h
    rcases List.mem_cons.mp h with rfl | h
    · exact ⟨[], sep :: rest, by simp [hitems]⟩
    · have hshort : rest.length < items.length := by simp [hitems]; omega
      obtain ⟨before, after, hrest, hlast⟩ := exists_append_of_mem_splitOnP h
      refine ⟨first ++ sep :: before, after, by simp [hitems, hrest], ?_⟩
      cases hbefore : before.getLast? with
      | none => simp_all
      | some last => simp_all [List.getLast?_append, List.getLast?_cons]
termination_by items.length

theorem exists_splitOnP_cons {α : Type} {p : α → Bool} {item : α} (items : List α)
    (h : p item = false) :
    ∃ first rest, (item :: items).splitOnP p = (item :: first) :: rest := by
  obtain ⟨first, rest, hsplit⟩ := List.exists_cons_of_ne_nil (List.splitOnP_ne_nil p items)
  refine ⟨first, rest, ?_⟩
  rw [List.splitOnP_cons_eq_if_modifyHead, hsplit, h]
  rfl

/-- A word stands in its line before the comment, first or behind a blank. -/
theorem exists_of_mem_cutWords {blank : Char → Bool} {line : List Char} {word : String}
    (h : word ∈ cutWords blank line) :
    ∃ before after, line = before ++ word.toList ++ after ∧
      (before ++ word.toList).length ≤ commentPlace blank line ∧
      before.getLast?.all Text.isBlank = true := by
  obtain ⟨run, hrun, rfl⟩ := List.mem_map.mp h
  obtain ⟨before, after, hcut, hlast⟩ :=
    exists_append_of_mem_splitOnP (List.mem_filter.mp hrun).1
  refine ⟨before, after ++ line.drop (commentPlace blank line), ?_, ?_, hlast⟩
  · rw [String.toList_ofList, ← List.append_assoc, ← hcut, List.take_append_drop]
  · have hlength := congrArg List.length hcut
    rw [String.toList_ofList]
    simp only [List.length_append, List.length_take] at hlength ⊢
    omega

theorem not_slashes_of_mem_cutWords {blank : Char → Bool} {line : List Char} {word : String}
    (h : word ∈ cutWords blank line) : ¬['/', '/'] <:+: word.toList := by
  rintro ⟨first, rest, hword⟩
  obtain ⟨before, after, hline, hplace, -⟩ := exists_of_mem_cutWords h
  have hslashes : line = (before ++ first) ++ '/' :: '/' :: (rest ++ after) := by
    simp [hline, ← hword]
  have hopens : opens blank (before ++ first) ('/' :: '/' :: (rest ++ after)) = true :=
    opens_iff.mpr (.inl ⟨_, rfl⟩)
  have hle := commentPlace_le_of_opens hopens
  rw [← hslashes] at hle
  rw [← hword] at hplace
  simp only [List.length_append, List.length_cons, List.length_nil] at hle hplace
  omega

theorem not_sharp_of_mem_cutWords {line : List Char} {word : String}
    (h : word ∈ cutWords Text.isBlank line) : word.toList.head? ≠ some '#' := by
  intro hsharp
  obtain ⟨rest, hword⟩ := List.head?_eq_some_iff.mp hsharp
  obtain ⟨before, after, hline, hplace, hlast⟩ := exists_of_mem_cutWords h
  rw [hword, List.append_assoc] at hline
  have hopens : opens Text.isBlank before ('#' :: rest ++ after) = true :=
    opens_iff.mpr (.inr ⟨⟨_, rfl⟩, hlast⟩)
  have hle := commentPlace_le_of_opens hopens
  rw [← hline] at hle
  rw [hword] at hplace
  simp only [List.length_append, List.length_cons] at hplace
  omega

/-! ## Blanks that are not ASCII -/

theorem opens_isBlank_of_isAsciiBlank {before after : List Char}
    (h : opens isAsciiBlank before after = true) : opens Text.isBlank before after = true := by
  rcases opens_iff.mp h with hslashes | ⟨hsharp, hlast⟩
  · exact opens_iff.mpr (.inl hslashes)
  · refine opens_iff.mpr (.inr ⟨hsharp, ?_⟩)
    cases hbefore : before.getLast? with
    | none => rfl
    | some last =>
        rw [hbefore] at hlast
        exact isBlank_of_isAsciiBlank hlast

theorem commentPlace_isBlank_le (line : List Char) :
    commentPlace Text.isBlank line ≤ commentPlace isAsciiBlank line :=
  commentPlace_le_commentPlace fun _ _ _ _ => opens_isBlank_of_isAsciiBlank

/-- A sharp behind a blank that is not an ASCII blank opens no comment. -/
theorem opens_isAsciiBlank_concat {before after : List Char} {c : Char}
    (h : isAsciiBlank c = false) : opens isAsciiBlank (before ++ [c]) ('#' :: after) = false := by
  refine Bool.eq_false_iff.mpr fun hopens => ?_
  rcases opens_iff.mp hopens with ⟨rest, hrest⟩ | ⟨-, hlast⟩
  · simp at hrest
  · simp [h] at hlast

/-- In a guarded line every opening is seen behind ASCII blanks. -/
theorem IsGuarded.opens_isAsciiBlank {line before after : List Char} (h : IsGuarded line)
    (hline : line = before ++ after) (hplace : commentPlace Text.isBlank line = before.length)
    (hopens : opens Text.isBlank before after = true) : opens isAsciiBlank before after = true := by
  rcases opens_iff.mp hopens with hslashes | ⟨⟨rest, rfl⟩, hlast⟩
  · exact opens_iff.mpr (.inl hslashes)
  · refine opens_iff.mpr (.inr ⟨⟨rest, rfl⟩, ?_⟩)
    rcases List.eq_nil_or_concat before with rfl | ⟨first, c, rfl⟩
    · rfl
    · rw [List.concat_eq_append] at hline hplace hlast ⊢
      have hc : Text.isBlank c = true := by simpa using hlast
      cases hascii : isAsciiBlank c with
      | true => simpa using hascii
      | false =>
          have hearly := h first c rest (by simp [hline]) hc hascii
          rw [hplace, List.length_append, List.length_singleton] at hearly
          omega

theorem commentPlace_eq_of_isGuarded {line : List Char} (h : IsGuarded line) :
    commentPlace isAsciiBlank line = commentPlace Text.isBlank line :=
  Nat.le_antisymm (commentPlace_le_commentPlace fun _ _ => h.opens_isAsciiBlank)
    (commentPlace_isBlank_le line)

/-- In a line that is not guarded a comment is read as a word. -/
theorem exists_sharp_of_not_isGuarded {line : List Char} (h : ¬IsGuarded line) :
    ∃ word ∈ cutWords isAsciiBlank line, word.toList.head? = some '#' := by
  simp only [IsGuarded, Classical.not_forall, Nat.not_le] at h
  obtain ⟨before, c, after, hline, hc, hascii, hplace⟩ := h
  -- The sharp opens no comment behind `c`, so the cut lies behind it.
  have hsharp : line = before ++ [c] ++ '#' :: after := by simp [hline]
  have hread : (before ++ [c]).length ≤
      commentPlace isAsciiBlank (before ++ [c] ++ '#' :: after) := by
    rw [← hsharp, List.length_append]
    exact Nat.le_trans hplace (commentPlace_isBlank_le line)
  have hlate := length_concat_le_commentPlace hread (opens_isAsciiBlank_concat hascii)
  obtain ⟨extra, hextra⟩ := Nat.exists_eq_add_of_le hlate
  have hcut : line.take (commentPlace isAsciiBlank line) =
      before ++ c :: '#' :: after.take extra := by
    rw [hsharp, List.append_cons, hextra, List.take_length_add_append]
    simp
  have hword : Text.isBlank '#' = false := by decide
  obtain ⟨first, rest, hrest⟩ := exists_splitOnP_cons (after.take extra) hword
  refine ⟨String.ofList ('#' :: first),
    List.mem_map.mpr ⟨_, List.mem_filter.mpr ⟨?_, rfl⟩, rfl⟩, ?_⟩
  · rw [hcut, List.splitOnP_append_cons before _ hc, hrest]
    exact List.mem_append_right _ List.mem_cons_self
  · rw [String.toList_ofList, List.head?_cons]

theorem numbered_congr {file : String} {words other : List Char → List String}
    {lines : List (List Char)} (h : ∀ line ∈ lines, words line = other line) :
    numbered file words lines = numbered file other lines := by
  refine List.filterMap_congr fun (line, number) hline => ?_
  dsimp only
  rw [h line (List.fst_mem_of_mem_zipIdx hline)]

/-- The statements of a source are the words before the comments of its lines, if a comment
opens at two slashes or at a `#` that is first or behind an ASCII blank. No word holds two
slashes. The same holds for a `#` that begins a word, and no word begins with one, exactly if
every line is guarded. -/
theorem ofSource_respects_comments_iff (file source : String) :
    ofSource file source = numbered file (cutWords isAsciiBlank) (source.toList.splitOn '\n') ∧
    (∀ statement ∈ ofSource file source, ∀ word ∈ statement.words,
      ¬['/', '/'] <:+: word.toList) ∧
    ((ofSource file source = numbered file (cutWords Text.isBlank) (source.toList.splitOn '\n') ∧
        ∀ statement ∈ ofSource file source, ∀ word ∈ statement.words,
          word.toList.head? ≠ some '#') ↔
      ∀ line ∈ source.toList.splitOn '\n', IsGuarded line) := by
  have hcode := ofSource_eq_numbered file source
  refine ⟨hcode, ?_, ?_, ?_⟩
  · intro statement hstatement word hword
    obtain ⟨line, -, hwords⟩ := mem_numbered (hcode ▸ hstatement)
    exact not_slashes_of_mem_cutWords (hwords ▸ hword)
  · rintro ⟨-, hnone⟩ line hline
    refine Classical.byContradiction fun hunguarded => ?_
    obtain ⟨word, hword, hsharp⟩ := exists_sharp_of_not_isGuarded hunguarded
    obtain ⟨statement, hstatement, hwords⟩ :=
      exists_mem_numbered file hline (List.ne_nil_of_mem hword)
    exact hnone statement (hcode ▸ hstatement) word (hwords ▸ hword) hsharp
  · intro hguarded
    have hrule := hcode.trans <| numbered_congr fun line hline => by
      rw [cutWords, commentPlace_eq_of_isGuarded (hguarded line hline), ← cutWords]
    refine ⟨hrule, fun statement hstatement word hword => ?_⟩
    obtain ⟨line, -, hwords⟩ := mem_numbered (hrule ▸ hstatement)
    exact not_sharp_of_mem_cutWords (hwords ▸ hword)

/-- A vertical tab parts two words, but the `#` behind it opens no comment. -/
theorem ofSource_sharp_behind_vertical_tab :
    ofSource "tune" "c4\x0b#d4" = [⟨⟨"tune", 1⟩, ["c4", "#d4"]⟩] ∧
      numbered "tune" (cutWords Text.isBlank) ("c4\x0b#d4".toList.splitOn '\n') =
        [⟨⟨"tune", 1⟩, ["c4"]⟩] := by
  decide +kernel

end Chiptune.Statement
