import WordC.Main
import WordC.Proofs.Except
import WordC.Proofs.Names
import WordC.Token.Stream
import WordC.Tree.Debug
import WordC.Tree.Grammar
import WordC.Tree.Meaning
import WordC.Tree.Same
import WordC.Tree.Walk
import WordC.Proofs.Lower.Typed
import WordC.Proofs.Lower.Supply
import WordC.Proofs.Lower.Simulation
import WordC.Proofs.Lower.Correctness
import WordC.Proofs.Parse.Exact
import WordC.Proofs.Parse.Expression
import WordC.Proofs.Parse.Program
import WordC.Proofs.Parse.Derivation
import WordC.Proofs.Module.WellFormed
import WordC.Proofs.Parse.Viable
import WordC.Proofs.Lower.Breach
import WordC.Proofs.Lower.FirstBreach
import WordC.Proofs.Lower.WellFormed
import WordC.Proofs.Token.Spelling
import WordC.Proofs.Token.Blocks
import WordC.Proofs.Token.Layout
import WordC.Proofs.Tree.Canonical
import WordC.Proofs.Parse.RoundTrip
import WordC.Proofs.Text.Lines
import WordC.Proofs.Token.Places
import WordC.Proofs.Lower.Blame
import WordC.Proofs.Parse.Places
import WordC.Proofs.Pointing
import WordC.Proofs.Lower.Unplaced
import WordC.Proofs.Lower.Independence
import WordC.Proofs.Lower.Whole
import WordC.Proofs.Parse.Alike
import WordC.Proofs.Failures
import WordC.Proofs.Relayout
import WordC.Proofs.Lower.Calls
import WordC.Proofs.Lower.Termination
import WordC.Proofs.Token.Join
import WordC.Proofs.Concatenation
import WordC.Proofs.FileSystem
import WordC.Proofs.Session
import WordC.Proofs.Command.Admission
import WordC.Proofs.Command.Effects
import WordC.Proofs.Command.Course
import WordC.Proofs.Command.ExitStatus
import WordC.Module.Generator
import WordC.Proofs.Generator.Simulation
import WordC.Proofs.Generator.Visit
import WordC.Proofs.Generator.Reuse
import WordC.Proofs.Token.Calls
import WordC.Proofs.Token.Numbers
import WordC.Proofs.Command.Input
import WordC.Proofs.Lower.Census
import WordC.Proofs.Token.Stream
import WordC.Proofs.Tree.Outline
import WordC.Proofs.Parse.Outline
import WordC.Proofs.Parse.Segments
import WordC.Proofs.Parse.Descent
