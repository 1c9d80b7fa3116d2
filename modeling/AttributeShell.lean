import AttributeShell.Main
import AttributeShell.Shell.Highlight
import AttributeShell.Proofs.Path.Language
import AttributeShell.Proofs.Path.Join
import AttributeShell.Proofs.Path.Written
import AttributeShell.Proofs.Path.Outcome
import AttributeShell.Proofs.Path.Table
import AttributeShell.Proofs.Path.Canonical
import AttributeShell.Proofs.Automaton.Nesting
import AttributeShell.Proofs.Completion.Descent
import AttributeShell.Proofs.Completion.Compose
import AttributeShell.Proofs.Completion.Describe
import AttributeShell.Proofs.Completion.Pruning
import AttributeShell.Proofs.Completion.Hint
import AttributeShell.Proofs.Address.RoundTrip
import AttributeShell.Proofs.Shell.Turns
import AttributeShell.Proofs.Shell.Cache
import AttributeShell.Proofs.Path.Extent
import AttributeShell.Proofs.Completion.Resolve
import AttributeShell.Proofs.Completion.Span
import AttributeShell.Proofs.Source.Freshness
import AttributeShell.Proofs.Schema.Description
import AttributeShell.Proofs.Schema.Wildcard
import AttributeShell.Proofs.Source.Snapshot
import AttributeShell.Proofs.Address.Resolve
import AttributeShell.Proofs.Automaton.Failure
import AttributeShell.Proofs.Address.Distinct
import AttributeShell.Proofs.Path.Words
import AttributeShell.Proofs.Shell.Commands
import AttributeShell.Proofs.Highlight.Pieces
import AttributeShell.Proofs.Highlight.Lossless
import AttributeShell.Proofs.Highlight.Brackets
import AttributeShell.Proofs.Automaton.Closing
import AttributeShell.Proofs.Automaton.Escape
import AttributeShell.Proofs.Automaton.Redispatch
import AttributeShell.Proofs.Shell.Lines
