import AmbientResidue.Config
import AmbientResidue.Context.Store
import AmbientResidue.Context.Threads
import AmbientResidue.Element.Arithmetic
import AmbientResidue.Session
import AmbientResidue.Engine.Script
import AmbientResidue.Wire.Document
import AmbientResidue.Wire.Frame
import AmbientResidue.Proofs.Session.Expression
import AmbientResidue.Proofs.Session.Scope
import AmbientResidue.Proofs.Element.Unwatched
import AmbientResidue.Proofs.Session.Unwatched
import AmbientResidue.Proofs.Element.Refusals
import AmbientResidue.Proofs.Session.Moduli
import AmbientResidue.Proofs.Session.Holdings
import AmbientResidue.Proofs.Session.Interference
import AmbientResidue.Proofs.Context.Threads
import AmbientResidue.Proofs.Session.Operands
import AmbientResidue.Proofs.Session.Stale
import AmbientResidue.Proofs.Session.Presence
import AmbientResidue.Proofs.BigEndian
import AmbientResidue.Proofs.Modulus.Classes
import AmbientResidue.Proofs.Decimal
import AmbientResidue.Proofs.Decimal.Canonical
import AmbientResidue.Proofs.Wire.Frame
import AmbientResidue.Proofs.Wire.Json
import AmbientResidue.Proofs.Wire.MessagePack
import AmbientResidue.Proofs.Element.Documents
import AmbientResidue.Proofs.Element.Framing
import AmbientResidue.Proofs.Element.Encoding
import AmbientResidue.Proofs.Element.Ring
import AmbientResidue.Proofs.Element.Unbiased
import AmbientResidue.Proofs.Session.Division
import AmbientResidue.Proofs.Session.Sampling
import AmbientResidue.Proofs.Session.RoundTrip
import AmbientResidue.Proofs.Text.Utf8
import AmbientResidue.Proofs.Session.Presentation
import AmbientResidue.Proofs.Integer.Documents
import AmbientResidue.Proofs.Config.Documents
import AmbientResidue.Proofs.Session.Configuration
import AmbientResidue.Proofs.Element.Constructors
import AmbientResidue.Proofs.Session.Standard
import AmbientResidue.Proofs.Session.Folds
import AmbientResidue.Proofs.Session.Cost
import AmbientResidue.Proofs.Engine.Counters
import AmbientResidue.Proofs.Session.Journal
