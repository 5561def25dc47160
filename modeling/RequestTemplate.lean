import RequestTemplate.Function.Secret
import RequestTemplate.Main
import RequestTemplate.Proofs.Decrypted
import RequestTemplate.Proofs.Layout
import RequestTemplate.Proofs.Stored
import RequestTemplate.Proofs.Lockstep
import RequestTemplate.Proofs.Policy
import RequestTemplate.Proofs.Saved
import RequestTemplate.Proofs.Ending
import RequestTemplate.Proofs.Depth
import RequestTemplate.Proofs.Independence
import RequestTemplate.Proofs.Escape
import RequestTemplate.Proofs.Sweep
import RequestTemplate.Proofs.Request
import RequestTemplate.Proofs.Sealed
import RequestTemplate.Proofs.Encrypted
import RequestTemplate.Proofs.Stable
import RequestTemplate.Proofs.Registration
import RequestTemplate.Proofs.Boundary
import RequestTemplate.Proofs.Filling
import RequestTemplate.Proofs.Literals
import RequestTemplate.Proofs.Inert
import RequestTemplate.Proofs.Leaves
import RequestTemplate.Proofs.Query
import RequestTemplate.Proofs.Precedence
import RequestTemplate.Proofs.Fault
import RequestTemplate.Proofs.Contained
import RequestTemplate.Proofs.Inline
import RequestTemplate.Proofs.Reload
import RequestTemplate.Proofs.Partition
import RequestTemplate.Proofs.QuotedText
import RequestTemplate.Proofs.Indent
