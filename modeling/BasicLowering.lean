import BasicLowering.LogFormat
import BasicLowering.Lowering.Conversion
import BasicLowering.Options.File
import BasicLowering.Proofs.Analysis.BooleanContext
import BasicLowering.Proofs.Analysis.NullFlow
import BasicLowering.Proofs.Analysis.SideEffects
import BasicLowering.Proofs.Analysis.Surroundings
import BasicLowering.Proofs.Lowering.Acceptance
import BasicLowering.Proofs.Lowering.Assembly
import BasicLowering.Proofs.Lowering.Hygiene
import BasicLowering.Proofs.Lowering.History
import BasicLowering.Proofs.Lowering.Independence
import BasicLowering.Proofs.Lowering.NothingOperand
import BasicLowering.Proofs.Lowering.Order
import BasicLowering.Proofs.Lowering.Resolution
import BasicLowering.Proofs.Lowering.Meaning
import BasicLowering.Proofs.Qualification.ImplicitReceiver
import BasicLowering.Proofs.Target.Names
import BasicLowering.Proofs.Target.RoundTrip
import BasicLowering.Qualification.NameExpander
import BasicLowering.Target.Piece
import BasicLowering.Proofs.Source.Sound
import BasicLowering.Proofs.Qualification.FullNames
import BasicLowering.Proofs.Binding.BaseTypes
import BasicLowering.Proofs.Qualification.Coverage
import BasicLowering.Proofs.Qualification.Replacements
import BasicLowering.Proofs.Qualification.Settled
import BasicLowering.Proofs.Lowering.StaticTyping
import BasicLowering.Proofs.Source.Location
import BasicLowering.Proofs.Binding.Containers
import BasicLowering.Proofs.Binding.Scopes
import BasicLowering.Proofs.Lowering.ExplicitCasts
import BasicLowering.Proofs.Source.Origins
import BasicLowering.Proofs.Target.Literals
import BasicLowering.Proofs.Options.Documents
