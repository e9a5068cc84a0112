import KeyBroker.Main
import KeyBroker.Proofs.Access.Handling
import KeyBroker.Proofs.Access.Scene
import KeyBroker.Proofs.Access.Record
import KeyBroker.Proofs.Access.Decision
import KeyBroker.Proofs.Access.Disclosure
import KeyBroker.Proofs.Wire.RoundTrip
import KeyBroker.Proofs.Stream.Credit
import KeyBroker.Proofs.Stream.Direct
import KeyBroker.Proofs.Wire.Exact
import KeyBroker.Proofs.Access.Hidden
import KeyBroker.Proofs.Stream.Replies
import KeyBroker.Proofs.Key.Running
import KeyBroker.Proofs.Access.Obstacles
import KeyBroker.Proofs.Stream.Order
import KeyBroker.Proofs.Stream.Noise
import KeyBroker.Proofs.Key.Undoing
import KeyBroker.Proofs.Access.Rotation
import KeyBroker.Proofs.Access.Isolation
import KeyBroker.Proofs.Access.Audit
import KeyBroker.Proofs.Access.Outline
import KeyBroker.Proofs.Stream.Decryption
import KeyBroker.Proofs.Json.Reading
import KeyBroker.Proofs.Text.Base64
import KeyBroker.Proofs.Key.Written
import KeyBroker.Proofs.Store.Filing
import KeyBroker.Proofs.Store.Publishing
import KeyBroker.Proofs.Store.Deposit
import KeyBroker.Proofs.Host.Places
import KeyBroker.Proofs.Stream.Sending
import KeyBroker.Proofs.Stream.Reading
import KeyBroker.Proofs.Stream.Writing
import KeyBroker.Proofs.Stream.Reports
import KeyBroker.Proofs.Host.Succession
import KeyBroker.Proofs.Key.Sealing
import KeyBroker.Proofs.Key.Signing
import KeyBroker.Proofs.Store.Acceptance
import KeyBroker.Proofs.Store.Checking
import KeyBroker.Proofs.Store.Loading
import KeyBroker.Proofs.Store.Rearranging
import KeyBroker.Proofs.Key.Inverting
import KeyBroker.Proofs.Key.Padding
import KeyBroker.Proofs.Key.Wrapping
import KeyBroker.Proofs.Key.Reencoding
import KeyBroker.Proofs.Access.Grants
import KeyBroker.Proofs.Access.Lines
import KeyBroker.Proofs.Config.Refusals
import KeyBroker.Proofs.Config.Saving
