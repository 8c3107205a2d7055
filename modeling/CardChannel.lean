import CardChannel.Main
import CardChannel.Session
import CardChannel.Apdu.Transmission
import CardChannel.Dialogue.Replay
import CardChannel.Dialogue.Trace
import CardChannel.Cipher.Inverse
import CardChannel.Proofs.ResponseMac
import CardChannel.Proofs.Wrapping
import CardChannel.Proofs.Handshake
import CardChannel.Proofs.Session.Operation
import CardChannel.Proofs.Session.FailClosed
import CardChannel.Proofs.Session.Wire
import CardChannel.Proofs.Mirror
import CardChannel.Proofs.Card
import CardChannel.Proofs.Completeness
import CardChannel.Proofs.Channel.Calls
import CardChannel.Proofs.Channel.CommandChain
import CardChannel.Proofs.Channel.Decoding
import CardChannel.Proofs.Channel.ResponseChain
import CardChannel.Proofs.Cryptogram
import CardChannel.Proofs.Session.RecordedReply
import CardChannel.Proofs.Channel.Divergence
import CardChannel.Proofs.Channel.ResponseReplay
import CardChannel.Proofs.Stepwise.Handshake
import CardChannel.Proofs.Stepwise.Session
import CardChannel.Proofs.Session.Opening
import CardChannel.Proofs.Session.Invariant
import CardChannel.Proofs.KeySeparation
import CardChannel.Proofs.ShortForm
import CardChannel.Proofs.Channel.ResponseBinding
import CardChannel.Proofs.Channel.Limits
import CardChannel.Proofs.KeyLookup
import CardChannel.Proofs.Session.Verdict
import CardChannel.Proofs.Session.Answering
import CardChannel.Proofs.Channel.Resumption
import CardChannel.Proofs.Hex
import CardChannel.Proofs.Tool.Invocation
import CardChannel.Proofs.Tool.Resumption
import CardChannel.Proofs.Padding
import CardChannel.Proofs.Decryption
import CardChannel.Proofs.RetailMac.Standard
import CardChannel.Proofs.Stepwise.Atomicity
import CardChannel.Proofs.Channel.Recomputation
import CardChannel.Proofs.KeyDerivation
import CardChannel.Proofs.Stepwise.Exchange
import CardChannel.Proofs.Session.Transparency
import CardChannel.Proofs.Session.SensitiveData
import CardChannel.Proofs.Stepwise.Padding
