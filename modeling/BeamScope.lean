import BeamScope.InstructionSet.Generated
import BeamScope.Main
import BeamScope.Proofs.ListingComplete
import BeamScope.Proofs.TermRoundTrip
import BeamScope.Proofs.ContainerLayout
import BeamScope.Proofs.LineIndependence
import BeamScope.Proofs.Positional.Basic
import BeamScope.Proofs.Positional.Compact
import BeamScope.Proofs.Positional.Tables
import BeamScope.Proofs.Positional.Term
import BeamScope.Proofs.Positional.Instructions
import BeamScope.Proofs.Positional.Functions
import BeamScope.Proofs.Positional.Container
import BeamScope.Proofs.TermNesting
import BeamScope.Proofs.CallGraphExact
import BeamScope.Proofs.FunctionParts
import BeamScope.Proofs.CorrelateParts
import BeamScope.Proofs.TableIndependence
import BeamScope.Proofs.CompactForms
import BeamScope.Proofs.LineRuns
import BeamScope.Proofs.Drawing
import BeamScope.Proofs.LineTableExact
import BeamScope.Proofs.DistantLines
import BeamScope.Proofs.CalledLabels
import BeamScope.Proofs.AtomTableRoundTrip
import BeamScope.Proofs.LiteralAlignment
import BeamScope.Proofs.Numerals
import BeamScope.Proofs.TermOffsets
import BeamScope.Proofs.Positional.BigInteger
import BeamScope.Proofs.CountChecks
import BeamScope.Proofs.CompactShortest
import BeamScope.Proofs.OperatorTokens
import BeamScope.Proofs.OperatorParsing
import BeamScope.Proofs.OperatorLexing
import BeamScope.Proofs.ClauseFragments
import BeamScope.Proofs.FragmentLayout
import BeamScope.Proofs.DistinctLiterals
import BeamScope.Proofs.LiteralWidth
import BeamScope.Proofs.CallGraphOrder
import BeamScope.Proofs.GraphReadBack
import BeamScope.Proofs.PairedOperands
import BeamScope.Proofs.Quoting
import BeamScope.Proofs.DebugForms
import BeamScope.Proofs.DefinitionFiles
import BeamScope.Proofs.ClassificationChecks
import BeamScope.Proofs.GeneratedTable
