import Chiptune.Proofs.Voice.Expansion

/-!
# Lists that repeat

The timbres and pitches of an envelope are read from words with an optional bar, and are repeated
until there is one for each volume. The place in the list goes back by a loop whenever it has run
off the end. What was read has a loop that is neither empty nor longer than the list, so the way
back is never too long, and the values are those found by going around the loop.
-/

namespace Chiptune

open Step

/-! ## Going around the loop -/

namespace Looped

variable {α : Type} {looped : Looped α} {count more : Nat}

/-- From place `index` on, `count` values are taken off the list one by one. None is looked for
outside the list, and no way back is longer than the way there. -/
inductive Takes (looped : Looped α) : Nat → Nat → List α → Prop where
  | done (index : Nat) : Takes looped index 0 []
  | onward {index count : Nat} {value : α} {values : List α}
      (hvalue : looped.steps[index]? = some value) (hrest : Takes looped (index + 1) count values) :
      Takes looped index (count + 1) (value :: values)
  | back {index count : Nat} {value : α} {values : List α}
      (hend : looped.steps.length ≤ index) (hback : looped.loopLength ≤ index)
      (hvalue : looped.steps[index - looped.loopLength]? = some value)
      (hrest : Takes looped (index - looped.loopLength + 1) count values) :
      Takes looped index (count + 1) (value :: values)

theorem IsLooping.takes_expandFrom
    (h : looped.IsLooping) (index : Nat) (hindex : index ≤ looped.steps.length) (count : Nat) :
    looped.Takes index count (looped.expandFrom index count) := by
  induction count generalizing index with
  | zero => exact .done index
  | succ count ih =>
      obtain ⟨value, hvalue, hstep⟩ := h.expandFrom_succ hindex count
      have hrest := ih (looped.place index + 1) (h.place_lt index)
      rw [hstep]
      rw [h.place_of_le hindex] at hvalue hrest ⊢
      by_cases hend : looped.steps.length ≤ index
      · rw [if_pos hend] at hvalue hrest ⊢
        exact .back hend (h.loop_le.trans hend) hvalue hrest
      · rw [if_neg hend] at hvalue hrest ⊢
        exact .onward hvalue hrest

theorem IsLooping.getElem?_expand
    (h : looped.IsLooping) {n : Nat} (hn : n < count) :
    (looped.expand count)[n]? = looped.steps[looped.place n]? := by
  have hplace := h.getElem?_expandFrom (Nat.zero_le looped.steps.length) hn
  rwa [Nat.zero_add] at hplace

/-- Fewer values are the first of more. -/
theorem expandFrom_prefix (looped : Looped α) (index : Nat) (hle : count ≤ more) :
    looped.expandFrom index count <+: looped.expandFrom index more := by
  induction count generalizing index more with
  | zero => exact List.nil_prefix
  | succ count ih =>
      obtain ⟨more, rfl⟩ : ∃ rest, more = rest + 1 := ⟨more - 1, by omega⟩
      rw [expandFrom, expandFrom]
      split
      · exact (List.prefix_cons_inj _).mpr (ih _ (by omega))
      · exact List.nil_prefix

theorem IsLooping.isWithin (h : looped.IsLooping) :
    Looped.IsWithin (fun _ => True) (some looped) := by
  rintro found ⟨⟩
  exact ⟨h, fun _ _ => trivial⟩

/-- The list was read from the words, each by `read`, and repeats as its loop says. -/
structure Repeats (looped : Looped α) (read : String → Except Fault α) (words : List String) :
    Prop where
  /-- Bars apart, there is a value for each word. -/
  values : ∃ values, split words = .ok (values, looped.loopLength) ∧
    List.Forall₂ (fun word value => read word = .ok value) values looped.steps
  loop_pos : 1 ≤ looped.loopLength
  loop_le : looped.loopLength ≤ looped.steps.length
  takes (count : Nat) : looped.Takes 0 count (looped.expand count)
  length (count : Nat) : (looped.expand count).length = count
  ahead {n count : Nat} (hn : n < count) (hahead : n < looped.steps.length) :
    (looped.expand count)[n]? = looped.steps[n]?
  around {n count : Nat} (hn : n < count) (haround : looped.steps.length ≤ n) :
    (looped.expand count)[n]? = looped.steps[looped.steps.length - looped.loopLength +
      (n - looped.steps.length) % looped.loopLength]?
  starts {count more : Nat} (hle : count ≤ more) : looped.expand count <+: looped.expand more

theorem repeats_of_read
    {what : String} {read : String → Except Fault α} {words : List String}
    (h : Looped.read what read words = .ok looped) : looped.Repeats read words := by
  obtain ⟨values, hsplit, -, hvalues⟩ := exists_split_of_read h
  obtain ⟨hlooping, -⟩ := read_eq_ok h
  refine ⟨⟨values, hsplit, hvalues⟩, hlooping.loop_pos, hlooping.loop_le,
    hlooping.takes_expandFrom 0 (Nat.zero_le _), hlooping.length_expandFrom (Nat.zero_le _), ?_, ?_,
    looped.expandFrom_prefix 0⟩
  · intro n count hn hahead
    rw [hlooping.getElem?_expand hn, place, if_pos hahead]
  · intro n count hn haround
    rw [hlooping.getElem?_expand hn, place, if_neg (Nat.not_lt.mpr haround)]

end Looped

/-! ## Envelopes -/

namespace Envelope

/-- The envelopes that accepted lists make of one without lists. -/
inductive Given : Envelope → Prop where
  | blank : Given .blank
  | setVolume {envelope next : Envelope} {words : List String} {place : Location} {owner : String}
      (h : Given envelope) (hset : envelope.setVolume words place owner = .ok next) : Given next
  | setTimbre {envelope next : Envelope} {most : Nat} {words : List String} {place : Location}
      {owner : String} (h : Given envelope)
      (hset : envelope.setTimbre most words place owner = .ok next) : Given next
  | setPitch {envelope next : Envelope} {read : String → Except Fault Int} {words : List String}
      {place : Location} {owner : String} (h : Given envelope)
      (hset : envelope.setPitch read words place owner = .ok next) : Given next

variable {envelope next : Envelope} {words : List String} {place : Location} {owner : String}

theorem setVolume_eq_ok (h : envelope.setVolume words place owner = .ok next) :
    next.timbre = envelope.timbre ∧ next.pitch = envelope.pitch := by
  obtain ⟨looped, -, hrest⟩ := outcome_bind_eq_ok h
  obtain ⟨volume, -, hnext⟩ := outcome_bind_eq_ok hrest
  obtain rfl := Except.ok.inj hnext
  exact ⟨rfl, rfl⟩

/-- Timbres that are accepted were read, and are kept. -/
theorem setTimbre_eq_ok
    {most : Nat} (h : envelope.setTimbre most words place owner = .ok next) :
    ∃ looped, Looped.read "timbre" (readTimbre most) words = .ok looped ∧
      next.timbre.value? = some looped ∧ next.pitch = envelope.pitch := by
  obtain ⟨looped, hread, hrest⟩ := outcome_bind_eq_ok h
  obtain ⟨timbre, htimbre, hnext⟩ := outcome_bind_eq_ok hrest
  obtain rfl := Except.ok.inj hnext
  exact ⟨looped, hread, Field.value?_of_set htimbre, rfl⟩

/-- Pitches that are accepted were read, and are kept. -/
theorem setPitch_eq_ok
    {read : String → Except Fault Int} (h : envelope.setPitch read words place owner = .ok next) :
    ∃ looped, Looped.read "pitch" read words = .ok looped ∧
      next.pitch.value? = some looped ∧ next.timbre = envelope.timbre := by
  obtain ⟨looped, hread, hrest⟩ := outcome_bind_eq_ok h
  obtain ⟨pitch, hpitch, hnext⟩ := outcome_bind_eq_ok hrest
  obtain rfl := Except.ok.inj hnext
  exact ⟨looped, hread, Field.value?_of_set hpitch, rfl⟩

/-- Whatever lists are given, those that repeat have a loop. -/
theorem Given.isWithin (h : envelope.Given) :
    Looped.IsWithin (fun _ => True) envelope.timbre.value? ∧
      Looped.IsWithin (fun _ => True) envelope.pitch.value? := by
  induction h with
  | blank => exact ⟨nofun, nofun⟩
  | setVolume _ hset ih =>
      obtain ⟨htimbre, hpitch⟩ := setVolume_eq_ok hset
      rwa [htimbre, hpitch]
  | setTimbre _ hset ih =>
      obtain ⟨looped, hread, htimbre, hpitch⟩ := setTimbre_eq_ok hset
      rw [htimbre, hpitch]
      exact ⟨(Looped.read_eq_ok hread).1.isWithin, ih.2⟩
  | setPitch _ hset ih =>
      obtain ⟨looped, hread, hpitch, htimbre⟩ := setPitch_eq_ok hset
      rw [htimbre, hpitch]
      exact ⟨ih.1, (Looped.read_eq_ok hread).1.isWithin⟩

/-- Timbres or pitches that are accepted have a loop within themselves, and are repeated to any
length by going around it. So every envelope has a frame for each volume. -/
theorem repeats_of_accepted
    (envelope : Envelope) (words : List String) (place : Location) (owner : String) :
    (∀ most next, envelope.setTimbre most words place owner = .ok next →
      ∃ looped, next.timbre.value? = some looped ∧ looped.Repeats (readTimbre most) words) ∧
    (∀ read next, envelope.setPitch read words place owner = .ok next →
      ∃ looped, next.pitch.value? = some looped ∧ looped.Repeats read words) ∧
    (envelope.Given → ∀ plain, (envelope.frames plain).length = envelope.volumes.length) := by
  refine ⟨?_, ?_, ?_⟩
  · intro most next hset
    obtain ⟨looped, hread, htimbre, -⟩ := setTimbre_eq_ok hset
    exact ⟨looped, htimbre, Looped.repeats_of_read hread⟩
  · intro read next hset
    obtain ⟨looped, hread, hpitch, -⟩ := setPitch_eq_ok hset
    exact ⟨looped, hpitch, Looped.repeats_of_read hread⟩
  · intro hgiven plain
    obtain ⟨htimbre, hpitch⟩ := hgiven.isWithin
    exact length_frames htimbre hpitch plain

/-- Five frames of one volume. -/
def drone : Envelope := { blank with volume := ⟨some ([8, 8, 8, 8, 8], ⟨"band.txt", 2⟩)⟩ }

/-- Timbres with a bar inside a word go around the two behind it. -/
theorem drone_repeats :
    ∃ next looped, drone.setTimbre 3 ["0|1", "2"] ⟨"band.txt", 3⟩ "drone" = .ok next ∧
      next.timbre.value? = some looped ∧ looped.expand 6 = [0, 1, 2, 1, 2, 1] ∧
      looped.Repeats (readTimbre 3) ["0|1", "2"] ∧
      drone.Given ∧ (drone.frames 2).length = drone.volumes.length := by
  have hvolume : blank.setVolume ["8", "8", "8", "8", "8"] ⟨"band.txt", 2⟩ "drone" =
      .ok drone := rfl
  have hgiven : drone.Given := .setVolume .blank hvolume
  have htimbre : drone.setTimbre 3 ["0|1", "2"] ⟨"band.txt", 3⟩ "drone" =
      .ok { drone with timbre := ⟨some (⟨[0, 1, 2], 2⟩, ⟨"band.txt", 3⟩)⟩ } := rfl
  obtain ⟨htimbres, -, hframes⟩ :=
    repeats_of_accepted drone ["0|1", "2"] ⟨"band.txt", 3⟩ "drone"
  obtain ⟨looped, hvalue, hrepeats⟩ := htimbres 3 _ htimbre
  obtain rfl : ⟨[0, 1, 2], 2⟩ = looped := Option.some.inj hvalue
  exact ⟨_, _, htimbre, hvalue, rfl, hrepeats, hgiven, hframes hgiven 2⟩

end Envelope

end Chiptune
