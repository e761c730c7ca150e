import Chiptune.Assembly
import Chiptune.Proofs.Reader.Order
import Mathlib.Data.List.Forall2

/-!
# Assembled scores

What is known of the tables when a score could be assembled, and of the score when it
was read from a source.
-/

namespace Chiptune.Assembly

open Step

theorem forall₂_of_mapM
    {ε α β : Type} {f : α → Except ε β} {items : List α} {results : List β}
    (h : items.mapM f = .ok results) :
    List.Forall₂ (fun item result => f item = .ok result) items results := by
  induction items generalizing results with
  | nil =>
      cases h
      exact .nil
  | cons item items ih =>
      rw [List.mapM_cons] at h
      obtain ⟨result, hresult, hrest⟩ := outcome_bind_eq_ok h
      obtain ⟨later, hlater, hresults⟩ := outcome_bind_eq_ok hrest
      cases hresults
      exact .cons hresult (ih hlater)

theorem eq_ok_of_faultAt
    {α β : Type} [Entity α] {entity : α} {outcome : Except Fault β} {value : β}
    (h : faultAt entity outcome = .ok value) : outcome = .ok value := by
  cases outcome with
  | ok found =>
      cases h
      rfl
  | error fault => cases h

theorem forall₂_of_songEntries
    {score : Score} {songs : List Song} {entries : List Entry}
    {diagnostics later : Diagnostics}
    (h : songEntries score songs diagnostics = .ok entries later) :
    List.Forall₂
      (fun (song : Song) entry => ∃ before after, song.entry score before = .ok entry after)
      songs entries := by
  induction songs generalizing entries diagnostics with
  | nil =>
      cases h
      exact .nil
  | cons song songs ih =>
      obtain ⟨entry, _, hentry, hrest⟩ := bind_eq_ok h
      obtain ⟨rest, _, hsongs, hentries⟩ := bind_eq_ok hrest
      cases hentries
      exact .cons ⟨_, _, adaptExcept_eq_ok hentry⟩ (ih hsongs)

/-- What an assembled score is made of. -/
theorem ofScore_eq_ok
    {score : Score} {diagnostics : Diagnostics} {assembly : Assembly}
    (h : ofScore score diagnostics = .ok assembly) :
    ∃ drums patterns songs, drumEntries score = .ok drums ∧
      patternEntries score = .ok patterns ∧
      songEntries score score.songs.entries diagnostics = .ok songs assembly.diagnostics ∧
      assembly.score = score ∧
      assembly.tables =
        [⟨.sfx, score.sfx.entries.map (·.entry)⟩,
          ⟨.instruments, score.instruments.entries.map (·.entry)⟩, ⟨.drums, drums⟩,
          ⟨.patterns, patterns⟩, ⟨.songs, songs⟩] := by
  obtain ⟨drums, hdrums, hrest⟩ := outcome_bind_eq_ok h
  obtain ⟨patterns, hpatterns, hsongs⟩ := outcome_bind_eq_ok hrest
  split at hsongs
  · cases hsongs
  · next songs later hrun =>
      cases hsongs
      exact ⟨drums, patterns, songs, hdrums, hpatterns, hrun, rfl, rfl⟩

/-- What a source is read to, before it is assembled. -/
theorem ofSource_eq_ok
    {files : SourceFiles} {depthLimit : Nat} {source : Reader.Source} {assembly : Assembly}
    (h : ofSource files depthLimit source = .ok assembly) :
    ∃ reader score diagnostics,
      Reader.readSource files source (Reader.initial depthLimit) = .ok () reader ∧
        reader.finish = .ok (score, diagnostics) ∧
        ofScore score diagnostics = .ok assembly := by
  obtain ⟨⟨score, diagnostics⟩, hscore, hassembly⟩ := outcome_bind_eq_ok h
  unfold scoreOf at hscore
  split at hscore
  · cases hscore
  · next reader hread => exact ⟨reader, score, diagnostics, hread, hscore, hassembly⟩

theorem score_of_finish
    {reader : Reader} {score : Score} {diagnostics : Diagnostics}
    (h : reader.finish = .ok (score, diagnostics)) : reader.score = score := by
  unfold Reader.finish at h
  split at h
  · cases h
  · cases h
    rfl

theorem inOrder_of_readSource
    {files : SourceFiles} {depthLimit : Nat} {source : Reader.Source} {reader : Reader}
    (h : Reader.readSource files source (Reader.initial depthLimit) = .ok () reader) :
    reader.InOrder := by
  have hleads : Leads Reader.Travels (Reader.readSource files source)
      (Reader.initial depthLimit) := Reader.readSource_leads files source
  rw [Leads, h] at hleads
  exact (Reader.inOrder_initial depthLimit).travels hleads

end Chiptune.Assembly
