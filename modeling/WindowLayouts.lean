import WindowLayouts.Desktop.Focus
import WindowLayouts.History.Run
import WindowLayouts.Layout.Catalog
import WindowLayouts.Main
import WindowLayouts.Number.Bits
import WindowLayouts.Proofs.EventLine
import WindowLayouts.Proofs.Decoding
import WindowLayouts.Proofs.JsonReading
import WindowLayouts.Proofs.LogLines
import WindowLayouts.Proofs.Files
import WindowLayouts.Proofs.StoredLog
import WindowLayouts.Proofs.Ranking
import WindowLayouts.Proofs.Thinning
import WindowLayouts.Proofs.Consistency
import WindowLayouts.Proofs.Answers
import WindowLayouts.Proofs.Following
import WindowLayouts.Proofs.Restart
import WindowLayouts.Proofs.UnseenCompaction
import WindowLayouts.Proofs.BadLines
import WindowLayouts.Proofs.LineAccounts
import WindowLayouts.Proofs.JudgedCompaction
import WindowLayouts.Proofs.CutLines
import WindowLayouts.Proofs.Writable
import WindowLayouts.Proofs.TornAppends
import WindowLayouts.Proofs.Rounding
import WindowLayouts.Proofs.Trimming
import WindowLayouts.Proofs.Grammar
import WindowLayouts.Proofs.FaultOrder
import WindowLayouts.Proofs.EventRoundTrip
import WindowLayouts.Proofs.SharedLog
import WindowLayouts.Proofs.Absorbed
import WindowLayouts.Proofs.FiniteValues
import WindowLayouts.Proofs.NearestWhole
import WindowLayouts.Proofs.ExactFractions
import WindowLayouts.Proofs.ValidLayouts
import WindowLayouts.Proofs.Verdicts
import WindowLayouts.Proofs.Placements
import WindowLayouts.Proofs.KnownSuggestions
import WindowLayouts.Proofs.RepeatedCompaction
import WindowLayouts.History.Replacement
import WindowLayouts.History.Steps
import WindowLayouts.Proofs.FailedCompaction
import WindowLayouts.Proofs.AtomicRecording
import WindowLayouts.Proofs.EventCounts
import WindowLayouts.Proofs.AppliedSuggestions
import WindowLayouts.Proofs.FocusedCommands
import WindowLayouts.Proofs.SuggestModes
