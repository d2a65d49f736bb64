import Inflection.Main
import Inflection.Session
import Inflection.SortedMap.Lemmas
import Inflection.Proofs.Lint.Coverage
import Inflection.Proofs.Pattern.RoundTrip
import Inflection.Proofs.Render.Components
import Inflection.Proofs.Render.Segmentwise
import Inflection.Proofs.Store.Family
import Inflection.Proofs.Store.Frame
import Inflection.Proofs.Store.Order
import Inflection.Proofs.Lexicon.Refusal
import Inflection.Proofs.Lexicon.WriteBack
import Inflection.Proofs.Render.Requests
import Inflection.Proofs.Lint.Survey
import Inflection.Proofs.Lint.Warned
import Inflection.Proofs.Lint.Plain
import Inflection.Proofs.Lint.Emptiness
import Inflection.Proofs.Lint.Repetition
import Inflection.Proofs.Render.Mirror
import Inflection.Proofs.Render.Loosened
import Inflection.Proofs.Lint.Reorder
import Inflection.Proofs.Registry.History
import Inflection.Proofs.Json.RoundTrip
import Inflection.Proofs.Command.Arguments
import Inflection.Proofs.Command.Eval
import Inflection.Proofs.Render.Outcome
import Inflection.Proofs.Render.Defaults
import Inflection.Proofs.Render.Aliases
import Inflection.Proofs.Json.Tree
import Inflection.Proofs.Json.Values
import Inflection.Proofs.Command.Check
import Inflection.Proofs.Options.Pairs
import Inflection.Proofs.Config.Offset
import Inflection.Proofs.Lexicon.Summary
import Inflection.Proofs.Lexicon.Cycles
import Inflection.Proofs.Options.Address
import Inflection.Proofs.Registry.Unloaded
import Inflection.Proofs.Config.Located
