import Chiptune.Proofs.Assembly
import Chiptune.Proofs.Song.Bookkeeping
import Chiptune.Proofs.Voice.Attack
import Chiptune.Proofs.Voice.StepWords

/-!
# Composed scores

Whatever is read, the voices of the score were made by properties that were checked, and the
books of its songs are kept.
-/

namespace Chiptune

open Step

/-- The voices are defined by properties that were accepted, and the books of songs are kept. -/
structure Score.Composed (score : Score) : Prop where
  sfx : ∀ effect ∈ score.sfx.entries, effect.Defined
  instruments : ∀ instrument ∈ score.instruments.entries, instrument.Defined
  songs : ∀ song ∈ score.songs.entries, song.Bookkept

namespace Reader

variable {reader later : Reader}

theorem composed_initial (depthLimit : Nat) : (initial depthLimit).score.Composed := by
  constructor <;> exact List.forall_mem_nil _

theorem composed_edit (h : reader.score.Composed) (hedit : Edit reader later) :
    later.score.Composed := by
  cases hedit with
  | remark | closeObject | setPitch | setMeter | defineChord => exact h
  | creditAlbum | setResume | addDrum | changePattern => exact { h with }
  | addSong =>
      exact { h with songs := forall_mem_add h.songs (Song.bookkept_blank _ _ _ _) }
  | changeEffect hat hrevision =>
      have hdefined := (h.sfx _ (List.mem_of_getElem? hat)).revise hrevision
      exact { h with sfx := forall_mem_put h.sfx hdefined }
  | changeInstrument hat hrevision =>
      have hdefined := (h.instruments _ (List.mem_of_getElem? hat)).revise hrevision
      exact { h with instruments := forall_mem_put h.instruments hdefined }
  | changeSong _ hat hstrokes =>
      have hbooks := (h.songs _ (List.mem_of_getElem? hat)).strokes hstrokes
      exact { h with songs := forall_mem_put h.songs hbooks }

theorem composed_opening {name : String} (h : reader.score.Composed)
    (hopening : Opening name reader later) : later.score.Composed := by
  cases hopening with
  | effect => exact { h with sfx := forall_mem_add h.sfx (.blank _ _ _ _) }
  | instrument => exact { h with instruments := forall_mem_add h.instruments (.blank _ _) }
  | pattern => exact { h with }

theorem composed_turn (h : reader.score.Composed) (hturn : Turn reader later) :
    later.score.Composed := by
  cases hturn with
  | move hmove =>
      cases hmove with
      | edit hedit => exact composed_edit h hedit
      | opening hopening => exact composed_opening h hopening
  | endSong _ hat hfinish =>
      obtain ⟨event, hending, rfl⟩ := Song.exists_push_of_finish hfinish
      have hplain := ConductorEvent.not_isTimed_of_isEnding hending
      have hbooks := (h.songs _ (List.mem_of_getElem? hat)).push hplain
      exact { h with songs := forall_mem_put h.songs hbooks }

theorem composed_travels (h : reader.score.Composed) (htravels : Travels reader later) :
    later.score.Composed := by
  induction htravels with
  | refl => exact h
  | tail _ htravel ih =>
      cases htravel with
      | turn hturn => exact composed_turn ih hturn
      | goTo => exact ih

end Reader

/-- What is assembled from a source is composed. -/
theorem Assembly.composed_of_readSource
    {files : SourceFiles} {depthLimit : Nat} {source : Reader.Source} {reader : Reader}
    (h : Reader.readSource files source (Reader.initial depthLimit) = .ok () reader) :
    reader.score.Composed := by
  have hleads : Leads Reader.Travels (Reader.readSource files source)
      (Reader.initial depthLimit) := Reader.readSource_leads files source
  rw [Leads, h] at hleads
  exact Reader.composed_travels (Reader.composed_initial depthLimit) hleads

end Chiptune
