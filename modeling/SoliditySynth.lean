import SoliditySynth.Main
import SoliditySynth.Programs
import SoliditySynth.Proofs.Changes
import SoliditySynth.Proofs.Histories
import SoliditySynth.Proofs.Leftovers
import SoliditySynth.Proofs.Roundtrip
import SoliditySynth.Session
import SoliditySynth.Proofs.Consistency
import SoliditySynth.Proofs.Numbering
import SoliditySynth.Proofs.ImportRuns
import SoliditySynth.Proofs.ImportsMet
import SoliditySynth.Proofs.ContractNames
import SoliditySynth.Proofs.TextReading
import SoliditySynth.Proofs.Rendering
import SoliditySynth.Proofs.JsonReader
import SoliditySynth.Proofs.JsonScanning
import SoliditySynth.Proofs.JsonRoundtrip
import SoliditySynth.Proofs.Atomicity
import SoliditySynth.Proofs.Accessors
import SoliditySynth.Proofs.Reordering
import SoliditySynth.Proofs.OrderBlindness
import SoliditySynth.Proofs.SplitOutput
import SoliditySynth.Proofs.ImportSampling
import SoliditySynth.Proofs.LineGrammar
import SoliditySynth.Proofs.HeededOptions
import SoliditySynth.Proofs.Rejection
import SoliditySynth.Proofs.SubsetOdds
import SoliditySynth.Proofs.UnitOutcome
import SoliditySynth.Proofs.EmptyOutput
