import MockTree.Json.Encoding
import MockTree.Main
import MockTree.Proofs.Containment
import MockTree.Proofs.History
import MockTree.Proofs.Outcome
import MockTree.Proofs.Shape
import MockTree.Server.Handle
import MockTree.Proofs.Resolution
import MockTree.Proofs.Grammar
import MockTree.Proofs.JsonGrammar
import MockTree.Proofs.JsonSpacing
import MockTree.Proofs.JsonBody
import MockTree.Proofs.Decimals
import MockTree.Proofs.JsonScalars
import MockTree.Proofs.JsonWriting
import MockTree.Proofs.Override
import MockTree.Proofs.Templates
import MockTree.Proofs.Accounts
import MockTree.Proofs.Echo
import MockTree.Proofs.Attachment
import MockTree.Proofs.Renaming
import MockTree.Proofs.Offsets
import MockTree.Proofs.Directives
import MockTree.Proofs.Misreading
import MockTree.Proofs.Closure
import MockTree.Proofs.Respacing
import MockTree.Proofs.WholeNumbers
import MockTree.Proofs.StatusAgreement
import MockTree.Proofs.WholeDoubles
import MockTree.Proofs.Literals
import MockTree.Proofs.Bounds
import MockTree.Proofs.RandomText
import MockTree.Proofs.BodyText
import MockTree.Proofs.Dates
import MockTree.Proofs.Shifts
import MockTree.Proofs.Headers
import MockTree.Proofs.NeatBody
import MockTree.Proofs.Groups
import MockTree.Proofs.Capturing
import MockTree.Proofs.DecodedLength
import MockTree.Proofs.QueryLength
import MockTree.Proofs.SeenTarget
