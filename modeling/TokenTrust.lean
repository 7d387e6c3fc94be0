import TokenTrust.Text.Blank
import TokenTrust.Text.Casing
import TokenTrust.Text.Quoted
import TokenTrust.Text.Numeral
import TokenTrust.Text.Base64
import TokenTrust.Crypto.Ed25519
import TokenTrust.Ordered.Map
import TokenTrust.Decimal.Shortest
import TokenTrust.Json.Scan
import TokenTrust.Json.Record
import TokenTrust.Signing.Canonical
import TokenTrust.Settings.Loading
import TokenTrust.Client.Setup
import TokenTrust.Proofs.Client.Delivery
import TokenTrust.Proofs.Signing.Checking
import TokenTrust.Proofs.Signing.Regrouping
import TokenTrust.Proofs.Json.Documents
import TokenTrust.Proofs.Client.Signed
import TokenTrust.Proofs.Client.Alarms
import TokenTrust.Proofs.Cache.Accounting
import TokenTrust.Proofs.Cache.LastUse
import TokenTrust.Proofs.Client.Failures
import TokenTrust.Proofs.Client.Reuse
import TokenTrust.Proofs.Client.Decision
import TokenTrust.Proofs.Client.MadeUp
import TokenTrust.Proofs.Settings.Overrides
import TokenTrust.Proofs.Client.Asserted
import TokenTrust.Proofs.Signing.KeyTexts
import TokenTrust.Proofs.Client.StandIn
import TokenTrust.Proofs.Client.Ready
import TokenTrust.Proofs.Identity.Recognition
import TokenTrust.Proofs.Headers.Precedence
import TokenTrust.Proofs.Signing.Separation
import TokenTrust.Proofs.Settings.Properties
import TokenTrust.Proofs.Text.Labels
