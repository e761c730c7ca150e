import Chiptune.Assembly
import Chiptune.Chord.Book
import Chiptune.Chord.Code
import Chiptune.Command.Arguments
import Chiptune.Command.Run
import Chiptune.Command.Snapshot
import Chiptune.Decimal.Binary
import Chiptune.Decimal.Reading
import Chiptune.Decimal.Rounding
import Chiptune.Decimal.Shortest
import Chiptune.Fault
import Chiptune.Field
import Chiptune.Keyword
import Chiptune.Main
import Chiptune.Markup.Block
import Chiptune.Markup.Cursor
import Chiptune.Markup.Document
import Chiptune.Markup.Event
import Chiptune.Markup.Lexer
import Chiptune.Markup.Plain
import Chiptune.Markup.Property
import Chiptune.Markup.Quoted
import Chiptune.Markup.Token
import Chiptune.Name
import Chiptune.Note.Accidental
import Chiptune.Note.DrumWord
import Chiptune.Note.Duration
import Chiptune.Note.Letter
import Chiptune.Note.Word
import Chiptune.Output.Constants
import Chiptune.Output.Dump
import Chiptune.Output.Entry
import Chiptune.Output.Json
import Chiptune.Output.Listing
import Chiptune.Output.Wrap
import Chiptune.Packing
import Chiptune.Pattern.Basic
import Chiptune.Pattern.Code
import Chiptune.Pattern.Encoding
import Chiptune.Pattern.Reading
import Chiptune.Pattern.Run
import Chiptune.Pattern.Tied
import Chiptune.Periods
import Chiptune.Pitch
import Chiptune.Reader.Argument
import Chiptune.Reader.Basic
import Chiptune.Reader.Conducting
import Chiptune.Reader.Settings
import Chiptune.Reader.Statements
import Chiptune.Reader.Voices
import Chiptune.Registry
import Chiptune.Report
import Chiptune.Rhythm.Meter
import Chiptune.Rhythm.NoteLength
import Chiptune.Scope
import Chiptune.Score
import Chiptune.Settings.Basic
import Chiptune.Song.Basic
import Chiptune.Song.Conducting
import Chiptune.Song.Rendering
import Chiptune.Source.FileTree
import Chiptune.Source.Location
import Chiptune.Source.Path
import Chiptune.Source.Statement
import Chiptune.Step
import Chiptune.Text.Blank
import Chiptune.Text.Cased
import Chiptune.Text.Cut
import Chiptune.Text.Lowercase
import Chiptune.Text.Numeral
import Chiptune.Track
import Chiptune.Voice.Drum
import Chiptune.Voice.Envelope
import Chiptune.Voice.Instrument
import Chiptune.Voice.SoundEffect
import Chiptune.Proofs.Pattern.History
import Chiptune.Proofs.Pattern.Tying
import Chiptune.Proofs.Pattern.Simulation
import Chiptune.Proofs.Pattern.Building
import Chiptune.Proofs.Pattern.Timeline
import Chiptune.Proofs.Pattern.Attacks
import Chiptune.Proofs.Pattern.Arpeggios
import Chiptune.Proofs.Packing
import Chiptune.Proofs.Song.Looping
import Chiptune.Proofs.Labels
import Chiptune.Proofs.Reader.Inclusion
import Chiptune.Proofs.Blocks
import Chiptune.Proofs.Song.Bookkeeping
import Chiptune.Proofs.Reader.Endings
import Chiptune.Proofs.Founded
import Chiptune.Proofs.Reader.Tracking
import Chiptune.Proofs.Output.Identifiers
import Chiptune.Proofs.References
import Chiptune.Proofs.Output.Written
import Chiptune.Proofs.Linking
import Chiptune.Proofs.Song.Timekeeping
import Chiptune.Proofs.Reader.Nesting
import Chiptune.Proofs.Pattern.Kinds
import Chiptune.Proofs.Song.LowestNote
import Chiptune.Proofs.Chord.Scoping
import Chiptune.Proofs.Pattern.Resolution
import Chiptune.Proofs.Pattern.Openings
import Chiptune.Proofs.Note.Scanning
import Chiptune.Proofs.Pattern.Drumming
import Chiptune.Proofs.Pitch.Intervals
import Chiptune.Proofs.Pitch.Holding
import Chiptune.Proofs.Rhythm.Elision
import Chiptune.Proofs.Lookup
import Chiptune.Proofs.Voice.Expansion
import Chiptune.Proofs.Voice.Attack
import Chiptune.Proofs.Voice.StepWords
import Chiptune.Proofs.Output.Wrapping
import Chiptune.Proofs.Source.Comments
import Chiptune.Proofs.Command.Refusals
import Chiptune.Proofs.Voice.Revisions
import Chiptune.Proofs.Reader.Composing
import Chiptune.Proofs.Text.Numerals
import Chiptune.Proofs.Output.Accounting
import Chiptune.Proofs.Pattern.Divisions
import Chiptune.Proofs.Voice.Repeating
import Chiptune.Proofs.Chord.Texts
import Chiptune.Proofs.Pitch.Texts
import Chiptune.Proofs.Chord.Inversion
