import TwoPass.Main
import TwoPass.Proofs.Aliasing
import TwoPass.Proofs.Correctness
import TwoPass.Proofs.Diagnosis
import TwoPass.Proofs.Linking
import TwoPass.Proofs.Printing
import TwoPass.Proofs.Reformatting
import TwoPass.Proofs.Renaming
import TwoPass.Proofs.UnusedLabel
import TwoPass.Proofs.ImageText
import TwoPass.Proofs.Initialization
import TwoPass.Proofs.LabelLines
import TwoPass.Proofs.EventLog
import TwoPass.Proofs.FileEffects
import TwoPass.Proofs.WriteOnce
import TwoPass.Proofs.EncodingTable
import TwoPass.Proofs.Spelling
import TwoPass.Proofs.ToolOutcome
import TwoPass.Proofs.Addresses
import TwoPass.Proofs.FirstFault
import TwoPass.Proofs.TextShape
import TwoPass.Proofs.LineGrammar
import TwoPass.Proofs.LiteralGrammar
import TwoPass.Proofs.JoinedSources
import TwoPass.Proofs.ListingText
import TwoPass.Proofs.JsonStrings
import TwoPass.Proofs.JsonNumbers
import TwoPass.Proofs.JsonGrammar
import TwoPass.Proofs.JsonScanning
import TwoPass.Proofs.JsonReading
import TwoPass.Proofs.JsonWriting
import TwoPass.Proofs.JsonListing
import TwoPass.Proofs.ConfigText
import TwoPass.Proofs.RegisterSources
import TwoPass.Files
import TwoPass.Proofs.FileMaps
