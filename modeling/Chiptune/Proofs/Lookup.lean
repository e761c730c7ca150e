import Chiptune.Proofs.Note.Scanning
import Chiptune.Proofs.Reader.Order
import Chiptune.Voice.Instrument

/-!
# Looking up a name from inside a scope

A scope is a text of components with two colons between them. A name is looked for in the
scope and in the scopes around it, which lack the last components, and then at top level. What
is found is the entity in the innermost scope. It does not depend on the order of definition,
and a new definition changes it only to itself.
-/

namespace Chiptune

/-! ## Before the last separator -/

namespace Text

variable {separator cs before : List Char}

/-- A separator follows the part, and none begins later. -/
structure IsBeforeLast (separator cs before : List Char) : Prop where
  follows : before ++ separator <+: cs
  longest : ∀ other, other ++ separator <+: cs → other.length ≤ before.length

theorem IsBeforeLast.cons
    (h : IsBeforeLast separator cs before) (c : Char) :
    IsBeforeLast separator (c :: cs) (c :: before) := by
  refine ⟨List.cons_prefix_cons.mpr ⟨rfl, h.follows⟩, ?_⟩
  intro other hother
  cases other with
  | nil => exact Nat.zero_le _
  | cons d other =>
      have hrest := (List.cons_prefix_cons.mp hother).2
      exact Nat.succ_le_succ (h.longest other hrest)

/-- The last separator is found, if there is one. -/
theorem beforeLastChars?_spec (hseparator : separator ≠ []) (cs : List Char) :
    (∀ before, beforeLastChars? separator cs = some before → IsBeforeLast separator cs before) ∧
    (beforeLastChars? separator cs = none → ∀ other, ¬other ++ separator <+: cs) := by
  induction cs with
  | nil =>
      refine ⟨nofun, fun _ other hother => hseparator ?_⟩
      exact (List.append_eq_nil_iff.mp (List.prefix_nil.mp hother)).2
  | cons c cs ih =>
      obtain ⟨hfound, hmissing⟩ := ih
      cases hrest : beforeLastChars? separator cs with
      | some before =>
          simp only [beforeLastChars?, hrest]
          refine ⟨?_, nofun⟩
          rintro _ ⟨⟩
          exact (hfound before hrest).cons c
      | none =>
          -- No separator begins in the rest, so the only place left for one is the start.
          have hfirst : ∀ other, other ++ separator <+: c :: cs → other = [] := by
            intro other hother
            cases other with
            | nil => rfl
            | cons d other =>
                exact absurd (List.cons_prefix_cons.mp hother).2 (hmissing hrest other)
          simp only [beforeLastChars?, hrest]
          split_ifs with hhere
          · refine ⟨?_, nofun⟩
            rintro _ ⟨⟩
            refine ⟨List.isPrefixOf_iff_prefix.mp hhere, fun other hother => ?_⟩
            rw [hfirst other hother]
          · refine ⟨nofun, fun _ other hother => hhere ?_⟩
            rw [hfirst other hother] at hother
            exact List.isPrefixOf_iff_prefix.mpr hother

end Text

/-! ## Scopes around a scope -/

namespace Name

variable {scope outer middle name : String}

/-- The outer scope is the scope without its last component: what stands before the last two
colons. -/
structure IsOuter (outer scope : String) : Prop where
  follows : ∃ last, scope = outer ++ "::" ++ last
  longest : ∀ other last, scope = other ++ "::" ++ last → other.length ≤ outer.length

theorem prefix_iff_exists {start text : String} :
    start.toList <+: text.toList ↔ ∃ rest, text = start ++ rest := by
  constructor
  · rintro ⟨rest, hrest⟩
    refine ⟨String.ofList rest, String.toList_injective ?_⟩
    simp [← hrest]
  · rintro ⟨rest, rfl⟩
    simp

theorem isOuter_iff :
    IsOuter outer scope ↔ Text.IsBeforeLast "::".toList scope.toList outer.toList := by
  have hstarts : ∀ part : String, part.toList ++ "::".toList <+: scope.toList ↔
      ∃ last, scope = part ++ "::" ++ last := by
    intro part
    rw [← String.toList_append, prefix_iff_exists]
  constructor
  · intro h
    refine ⟨(hstarts outer).mpr h.follows, fun other hother => ?_⟩
    have hfound : (String.ofList other).toList ++ "::".toList <+: scope.toList := by
      simpa using hother
    obtain ⟨last, hlast⟩ := (hstarts _).mp hfound
    simpa [String.length_toList] using h.longest _ last hlast
  · intro h
    refine ⟨(hstarts outer).mp h.follows, fun other last hlast => ?_⟩
    simpa [String.length_toList] using h.longest other.toList ((hstarts other).mpr ⟨last, hlast⟩)

theorem IsOuter.unique {other : String} (h : IsOuter outer scope) (hother : IsOuter other scope) :
    outer = other := by
  obtain ⟨last, hlast⟩ := h.follows
  obtain ⟨rest, hrest⟩ := hother.follows
  have hlength : outer.length = other.length :=
    Nat.le_antisymm (hother.longest outer last hlast) (h.longest other rest hrest)
  have htexts : outer.toList ++ ("::" ++ last).toList = other.toList ++ ("::" ++ rest).toList := by
    rw [← String.toList_append, ← String.toList_append, ← String.append_assoc,
      ← String.append_assoc, ← hlast, ← hrest]
  have hlists : outer.toList.length = other.toList.length := by
    simpa [String.length_toList] using hlength
  exact String.toList_injective (List.append_inj_left htexts hlists)

theorem IsOuter.length_lt (h : IsOuter outer scope) : outer.length < scope.length := by
  obtain ⟨last, rfl⟩ := h.follows
  have hcolons : "::".length = 2 := by decide
  simp only [String.length_append, hcolons]
  omega

theorem beforeLast?_eq_some_iff :
    Text.beforeLast? "::" scope = some outer ↔ IsOuter outer scope := by
  have hcolons : "::".toList ≠ [] := by decide
  obtain ⟨hfound, hmissing⟩ := Text.beforeLastChars?_spec hcolons scope.toList
  rw [Text.beforeLast?]
  constructor
  · intro h
    obtain ⟨before, hbefore, rfl⟩ := Option.map_eq_some_iff.mp h
    rw [isOuter_iff, String.toList_ofList (l := before)]
    exact hfound before hbefore
  · intro h
    cases hcut : Text.beforeLastChars? "::".toList scope.toList with
    | none => exact absurd (isOuter_iff.mp h).follows (hmissing hcut _)
    | some before =>
        have hbefore : IsOuter (String.ofList before) scope := by
          rw [isOuter_iff, String.toList_ofList (l := before)]
          exact hfound before hcut
        rw [Option.map_some, hbefore.unique h]

/-- The scope with any number of its last components dropped. -/
inductive Encloses : String → String → Prop where
  | refl (scope : String) : Encloses scope scope
  | drop {outer middle scope : String} (h : IsOuter middle scope) (hrest : Encloses outer middle) :
      Encloses outer scope

theorem Encloses.length_le (h : Encloses outer scope) : outer.length ≤ scope.length := by
  induction h with
  | refl => exact Nat.le_refl _
  | drop hmiddle _ ih => exact ih.trans hmiddle.length_lt.le

/-- The scopes around a scope are all found. -/
theorem mem_enclosingUpTo {fuel : Nat} (hfuel : scope.length < fuel) :
    outer ∈ enclosingUpTo fuel scope ↔ Encloses outer scope := by
  induction fuel generalizing scope with
  | zero => omega
  | succ fuel ih =>
      rw [enclosingUpTo, List.mem_cons]
      cases hlast : Text.beforeLast? "::" scope with
      | none =>
          constructor
          · rintro (rfl | hmem)
            · exact .refl _
            · cases hmem
          · rintro (_ | ⟨hmiddle, -⟩)
            · exact .inl rfl
            · rw [beforeLast?_eq_some_iff.mpr hmiddle] at hlast
              cases hlast
      | some middle =>
          have hmiddle := beforeLast?_eq_some_iff.mp hlast
          have hshorter : middle.length < fuel := by
            have := hmiddle.length_lt
            omega
          constructor
          · rintro (rfl | hmem)
            · exact .refl _
            · exact .drop hmiddle ((ih hshorter).mp hmem)
          · rintro (_ | ⟨hother, hrest⟩)
            · exact .inl rfl
            · rw [hother.unique hmiddle] at hrest
              exact .inr ((ih hshorter).mpr hrest)

/-- The scopes around a scope get shorter. -/
theorem pairwise_enclosingUpTo (fuel : Nat) (scope : String) (hfuel : scope.length < fuel) :
    (enclosingUpTo fuel scope).Pairwise fun inner outer => outer.length < inner.length := by
  induction fuel generalizing scope with
  | zero => exact .nil
  | succ fuel ih =>
      rw [enclosingUpTo]
      cases hlast : Text.beforeLast? "::" scope with
      | none => exact List.pairwise_singleton _ _
      | some middle =>
          have hmiddle := (beforeLast?_eq_some_iff.mp hlast).length_lt
          refine List.pairwise_cons.mpr ⟨fun outer houter => ?_, ih middle (by omega)⟩
          exact ((mem_enclosingUpTo (by omega)).mp houter).length_le.trans_lt hmiddle

/-- The scopes that a name is looked for in. The empty scope is the top level, and there are
none around it. -/
def LooksIn (outer scope : String) : Prop := scope ≠ "" ∧ Encloses outer scope

theorem mem_enclosing : outer ∈ enclosing scope ↔ LooksIn outer scope := by
  unfold enclosing LooksIn
  split_ifs with hempty
  · simp [String.isEmpty_iff.mp hempty]
  · rw [mem_enclosingUpTo (Nat.lt_succ_self _)]
    simp [← String.isEmpty_iff, hempty]

theorem pairwise_enclosing (scope : String) :
    (enclosing scope).Pairwise fun inner outer => outer.length < inner.length := by
  unfold enclosing
  split_ifs
  · exact .nil
  · exact pairwise_enclosingUpTo _ scope (Nat.lt_succ_self _)

end Name

/-! ## What is found -/

namespace Registry

variable {α : Type} [Entity α] {registry next other : Registry α} {name scope outer : String}
  {entity : α}

/-- The registries that are made by definitions that are accepted. -/
inductive Built : Registry α → Prop where
  | empty : Built Registry.empty
  | insert {registry next : Registry α} {kind : String} {entity : α} {index : Nat}
      (h : Built registry) (hinsert : registry.insert kind entity = .ok (index, next)) : Built next

theorem Built.distinct (h : Built registry) : registry.Distinct := by
  induction h with
  | empty => exact List.nodup_nil
  | insert _ hinsert ih =>
      obtain ⟨hnew, -, rfl⟩ := insert_eq_ok hinsert
      exact ih.add hnew

/-- The registry holds the entity under its qualified name. -/
def Holds (registry : Registry α) (entity : α) (name : String) : Prop :=
  entity ∈ registry.entries ∧ Entity.name entity = name

/-- The scope is the longest one in which the registry holds an entity of the name. -/
structure IsInnermost (registry : Registry α) (name scope outer : String) (entity : α) :
    Prop where
  looks : Name.LooksIn outer scope
  holds : registry.Holds entity (outer ++ "::" ++ name)
  longest : ∀ other found, Name.LooksIn other scope →
    registry.Holds found (other ++ "::" ++ name) → other.length ≤ outer.length

/-- In a list of scopes that get shorter, the first that serves is the longest. -/
theorem findSome?_eq_some_iff_longest
    {β : Type} {scopes : List String} {find : String → Option β} {found : β}
    (hscopes : scopes.Pairwise fun inner outer => outer.length < inner.length) :
    scopes.findSome? find = some found ↔
      ∃ scope ∈ scopes, find scope = some found ∧
        ∀ other ∈ scopes, find other ≠ none → other.length ≤ scope.length := by
  rw [List.findSome?_eq_some_iff]
  constructor
  · rintro ⟨before, scope, behind, rfl, hfound, hbefore⟩
    refine ⟨scope, by simp, hfound, fun other hother hsome => ?_⟩
    rcases List.mem_append.mp hother with hother | hother
    · exact absurd (hbefore other hother) hsome
    · rcases List.mem_cons.mp hother with rfl | hother
      · exact Nat.le_refl _
      · have hcons := (List.pairwise_append.mp hscopes).2.1
        exact (List.rel_of_pairwise_cons hcons hother).le
  · rintro ⟨scope, hmem, hfound, hlongest⟩
    obtain ⟨before, behind, rfl⟩ := List.append_of_mem hmem
    refine ⟨before, scope, behind, rfl, hfound, fun other hother => ?_⟩
    have hlonger : scope.length < other.length :=
      (List.pairwise_append.mp hscopes).2.2 other hother scope List.mem_cons_self
    by_contra hsome
    exact absurd (hlongest other (List.mem_append_left _ hother) hsome) (by omega)

theorem candidates_eq (hname : ¬∃ rest, name = "::" ++ rest) :
    Name.candidates name scope =
      (Name.enclosing scope).map (fun outer => outer ++ "::" ++ name) ++ [name] := by
  have hlocal : Text.after? "::" name = none := by
    cases hafter : Text.after? "::" name with
    | none => rfl
    | some rest =>
        obtain ⟨cs, hcs, -⟩ := Option.map_eq_some_iff.mp hafter
        have hstarts : "::".toList <+: name.toList :=
          ⟨cs, (Text.afterChars?_eq_some_iff.mp hcs).symm⟩
        exact absurd (Name.prefix_iff_exists.mp hstarts) hname
  simp only [Name.candidates, hlocal]
  rfl

theorem candidates_global (rest scope : String) :
    Name.candidates ("::" ++ rest) scope = [rest] := by
  have hafter : Text.after? "::" ("::" ++ rest) = some rest := by
    rw [Text.after?, Text.afterChars?_eq_some_iff.mpr (String.toList_append),
      Option.map_some, String.ofList_toList]
  simp only [Name.candidates, hafter]

/-- What is found of a name in a scope and around it. -/
def findAround? (registry : Registry α) (name scope : String) : Option α :=
  (Name.enclosing scope).findSome? fun outer => registry.get? (outer ++ "::" ++ name)

theorem resolve?_eq_or (hname : ¬∃ rest, name = "::" ++ rest) :
    registry.resolve? name scope = (registry.findAround? name scope).or (registry.get? name) := by
  rw [resolve?, candidates_eq hname, List.findSome?_append, List.findSome?_map,
    List.findSome?_singleton]
  rfl

theorem get?_eq_none_iff_forall_not_holds (h : registry.Distinct) :
    registry.get? name = none ↔ ∀ found, ¬registry.Holds found name := by
  rw [Option.eq_none_iff_forall_ne_some]
  exact forall_congr' fun found => not_congr (get?_eq_some_iff h)

theorem findAround?_eq_some_iff (h : registry.Distinct) :
    registry.findAround? name scope = some entity ↔
      ∃ outer, registry.IsInnermost name scope outer entity := by
  rw [findAround?, findSome?_eq_some_iff_longest (Name.pairwise_enclosing scope)]
  constructor
  · rintro ⟨outer, hmem, hget, hlongest⟩
    refine ⟨outer, Name.mem_enclosing.mp hmem, (get?_eq_some_iff h).mp hget, ?_⟩
    intro other found hlooks hholds
    refine hlongest other (Name.mem_enclosing.mpr hlooks) fun hnone => ?_
    exact (get?_eq_none_iff_forall_not_holds h).mp hnone found hholds
  · rintro ⟨outer, hlooks, hholds, hlongest⟩
    refine ⟨outer, Name.mem_enclosing.mpr hlooks, (get?_eq_some_iff h).mpr hholds, ?_⟩
    intro other hmem hsome
    obtain ⟨found, hfound⟩ := Option.ne_none_iff_exists'.mp hsome
    exact hlongest other found (Name.mem_enclosing.mp hmem) ((get?_eq_some_iff h).mp hfound)

/-- The registry holds no entity of the name in the scope or around it. -/
def IsBareOf (registry : Registry α) (name scope : String) : Prop :=
  ∀ outer found, Name.LooksIn outer scope → ¬registry.Holds found (outer ++ "::" ++ name)

theorem findAround?_eq_none_iff (h : registry.Distinct) :
    registry.findAround? name scope = none ↔ registry.IsBareOf name scope := by
  rw [findAround?, List.findSome?_eq_none_iff]
  constructor
  · intro hnone outer found hlooks
    have hget := hnone outer (Name.mem_enclosing.mpr hlooks)
    exact (get?_eq_none_iff_forall_not_holds h).mp hget found
  · intro hbare outer hmem
    exact (get?_eq_none_iff_forall_not_holds h).mpr fun found =>
      hbare outer found (Name.mem_enclosing.mp hmem)

/-- A name is found in the innermost scope that holds it, or else at top level. -/
theorem resolve?_eq_some_iff (h : registry.Distinct) (hname : ¬∃ rest, name = "::" ++ rest) :
    registry.resolve? name scope = some entity ↔
      (∃ outer, registry.IsInnermost name scope outer entity) ∨
      registry.IsBareOf name scope ∧ registry.Holds entity name := by
  rw [resolve?_eq_or hname, Option.or_eq_some_iff, findAround?_eq_some_iff h,
    findAround?_eq_none_iff h, get?_eq_some_iff h]
  rfl

theorem resolve?_global (h : registry.Distinct) (rest scope : String) :
    registry.resolve? ("::" ++ rest) scope = some entity ↔ registry.Holds entity rest := by
  rw [resolve?, candidates_global, List.findSome?_singleton, get?_eq_some_iff h]
  rfl

/-! ## Order and growth -/

/-- The order of the entities does not matter. -/
theorem resolve?_eq_of_mem_iff
    (h : registry.Distinct) (hother : other.Distinct)
    (hsame : ∀ entity, entity ∈ other.entries ↔ entity ∈ registry.entries) :
    other.resolve? name scope = registry.resolve? name scope := by
  have hget : ∀ name, other.get? name = registry.get? name := by
    intro name
    apply Option.ext
    intro entity
    rw [get?_eq_some_iff hother, get?_eq_some_iff h, hsame]
  simp only [resolve?, funext hget]

theorem get?_add (hnew : registry.get? (Entity.name entity) = none) (name : String) :
    (registry.add entity).get? name = registry.get? name ∨
      registry.get? name = none ∧ (registry.add entity).get? name = some entity := by
  by_cases hname : Entity.name entity = name
  · rw [hname] at hnew
    refine .inr ⟨hnew, ?_⟩
    simp only [get?, Registry.add, List.find?_append]
    unfold get? at hnew
    simp [hnew, hname]
  · refine .inl ?_
    simp [get?, Registry.add, List.find?_append, hname]

/-- One more entity is found itself, or changes nothing. -/
theorem findSome?_add
    (hnew : registry.get? (Entity.name entity) = none) (candidates : List String) :
    candidates.findSome? (registry.add entity).get? = candidates.findSome? registry.get? ∨
      candidates.findSome? (registry.add entity).get? = some entity := by
  induction candidates with
  | nil => exact .inl rfl
  | cons candidate rest ih =>
      rcases get?_add hnew candidate with hsame | ⟨hnone, hfound⟩
      · cases hget : registry.get? candidate with
        | some found => exact .inl (by simp [hsame, hget])
        | none => simpa [hsame, hget] using ih
      · exact .inr (by simp [hfound])

/-- In every registry that definitions make, a name stands for the entity in the innermost
scope around it, or else for the one at top level, and behind two colons always for the one at
top level. The order of the definitions does not matter, and one more definition changes
nothing or is what is found. -/
theorem resolves_innermost (h : registry.Built) :
    (∀ name scope entity, (¬∃ rest, name = "::" ++ rest) →
      (registry.resolve? name scope = some entity ↔
        (∃ outer, registry.IsInnermost name scope outer entity) ∨
        registry.IsBareOf name scope ∧ registry.Holds entity name)) ∧
    (∀ rest scope entity,
      registry.resolve? ("::" ++ rest) scope = some entity ↔ registry.Holds entity rest) ∧
    (∀ other : Registry α, other.Built →
      (∀ entity, entity ∈ other.entries ↔ entity ∈ registry.entries) →
      ∀ name scope, other.resolve? name scope = registry.resolve? name scope) ∧
    (∀ kind entity index next, registry.insert kind entity = .ok (index, next) →
      ∀ name scope, next.resolve? name scope = registry.resolve? name scope ∨
        next.resolve? name scope = some entity) := by
  refine ⟨?_, ?_, ?_, ?_⟩
  · intro name scope entity hname
    exact resolve?_eq_some_iff h.distinct hname
  · intro rest scope entity
    exact resolve?_global h.distinct rest scope
  · intro other hother hsame name scope
    exact resolve?_eq_of_mem_iff h.distinct hother.distinct hsame
  · intro kind entity index next hinsert name scope
    obtain ⟨hnew, -, rfl⟩ := insert_eq_ok hinsert
    exact findSome?_add hnew (Name.candidates name scope)

/-- An instrument of the name. -/
def voice (name : String) : Instrument := .blank name ⟨"band.txt", 1⟩

/-- An instrument at top level and one of the same name in a song. -/
def band : Registry Instrument := ⟨[voice "lead", voice "verse::lead"]⟩

theorem insert_lead :
    (Registry.empty : Registry Instrument).insert "instrument" (voice "lead") =
      .ok (0, ⟨[voice "lead"]⟩) := rfl

theorem insert_verse_lead :
    (⟨[voice "lead"]⟩ : Registry Instrument).insert "instrument" (voice "verse::lead") =
      .ok (1, band) := rfl

theorem built_band : band.Built := .insert (.insert .empty insert_lead) insert_verse_lead

theorem lead_isLocal : ¬∃ rest, "lead" = "::" ++ rest := by
  rintro ⟨rest, hrest⟩
  have hhead := congrArg (fun text => text.toList.head?) hrest
  simp at hhead

/-- Inside a pattern of the song the instrument of the song is found, and behind two colons the
one at top level. -/
theorem band_resolves_innermost :
    band.Built ∧ (∃ outer, band.IsInnermost "lead" "verse::riff" outer (voice "verse::lead")) ∧
      band.resolve? "lead" "verse::riff" = some (voice "verse::lead") ∧
      band.resolve? ("::" ++ "lead") "verse::riff" = some (voice "lead") := by
  have hfound : band.resolve? "lead" "verse::riff" = some (voice "verse::lead") := rfl
  have hheld : band.Holds (voice "lead") "lead" := ⟨List.mem_cons_self, rfl⟩
  obtain ⟨hresolve, hglobal, -, -⟩ := resolves_innermost built_band
  refine ⟨built_band, ?_, hfound, (hglobal _ _ _).mpr hheld⟩
  rcases (hresolve _ _ _ lead_isLocal).mp hfound with hinnermost | ⟨-, -, hname⟩
  · exact hinnermost
  · exact absurd hname (by decide)

/-- Only an instrument whose name begins with two colons. -/
def nameless : Registry Instrument := ⟨[voice "::lead"]⟩

/-- The empty scope is the longest one around itself, and the registry holds the name in it, but
in the empty scope it is not looked for. -/
theorem nameless_not_resolved_in_empty_scope :
    nameless.Built ∧ (¬∃ rest, "lead" = "::" ++ rest) ∧ Name.Encloses "" "" ∧
      (∀ outer, Name.Encloses outer "" → outer.length ≤ "".length) ∧
      nameless.Holds (voice "::lead") ("" ++ "::" ++ "lead") ∧
      nameless.resolve? "lead" "" = none := by
  have hinsert : (Registry.empty : Registry Instrument).insert "instrument" (voice "::lead") =
      .ok (0, nameless) := rfl
  exact ⟨.insert .empty hinsert, lead_isLocal, .refl "", fun _ => Name.Encloses.length_le,
    ⟨List.mem_cons_self, by decide⟩, rfl⟩

end Registry

end Chiptune
