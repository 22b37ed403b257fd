import Imageboard.Admin
import Imageboard.Board.Basic
import Imageboard.Board.Contacts
import Imageboard.Board.Replies
import Imageboard.Board.Row
import Imageboard.Board.Store
import Imageboard.Board.Table
import Imageboard.Board.Tables
import Imageboard.Board.Thread
import Imageboard.Config
import Imageboard.Crypto.Base64
import Imageboard.Crypto.Blocks
import Imageboard.Crypto.Der
import Imageboard.Crypto.Md5
import Imageboard.Crypto.Md5Crypt
import Imageboard.Crypto.Pem
import Imageboard.Crypto.Rsa
import Imageboard.Crypto.RsaKeyFile
import Imageboard.Crypto.RsaKeyPair
import Imageboard.Crypto.Sha256
import Imageboard.Fault
import Imageboard.Federation.Audience
import Imageboard.Federation.Delivery
import Imageboard.Federation.Inbox
import Imageboard.Federation.KeyResolver
import Imageboard.Federation.Outbox
import Imageboard.Federation.Serving
import Imageboard.Federation.SocialGraph
import Imageboard.Federation.Web
import Imageboard.Files
import Imageboard.Http.Header
import Imageboard.Http.Uri
import Imageboard.Json.Binary64
import Imageboard.Json.Parser
import Imageboard.Json.Printer
import Imageboard.Json.Record
import Imageboard.Json.Value
import Imageboard.Keys.Registry
import Imageboard.Lifecycle.Cascade
import Imageboard.Lifecycle.Create
import Imageboard.Lifecycle.Linking
import Imageboard.Lifecycle.Replicate
import Imageboard.Lifecycle.Retype
import Imageboard.Main
import Imageboard.Path
import Imageboard.Proofs.Authority
import Imageboard.Proofs.Blocking
import Imageboard.Proofs.Board.Ancestors
import Imageboard.Proofs.Board.Beginnings
import Imageboard.Proofs.Board.BreadthFirst
import Imageboard.Proofs.Board.Counting
import Imageboard.Proofs.Board.Entries
import Imageboard.Proofs.Board.Groups
import Imageboard.Proofs.Board.Linking
import Imageboard.Proofs.Board.Selection
import Imageboard.Proofs.Board.Subtree
import Imageboard.Proofs.Board.Table
import Imageboard.Proofs.Board.Thread
import Imageboard.Proofs.Board.Tiers
import Imageboard.Proofs.Board.Writes
import Imageboard.Proofs.Crypto.Md5Crypt
import Imageboard.Proofs.Crypto.Rsa
import Imageboard.Proofs.Effects
import Imageboard.Proofs.Federation.Admission
import Imageboard.Proofs.Federation.Authentication
import Imageboard.Proofs.Federation.Delivery
import Imageboard.Proofs.Federation.Inbox
import Imageboard.Proofs.Federation.InboxGate
import Imageboard.Proofs.Federation.KeyCache
import Imageboard.Proofs.Federation.KeyResolver
import Imageboard.Proofs.Federation.MediaFiles
import Imageboard.Proofs.Federation.Outbox
import Imageboard.Proofs.Federation.Posting
import Imageboard.Proofs.Federation.Refusals
import Imageboard.Proofs.Federation.Serving
import Imageboard.Proofs.Federation.Tampering
import Imageboard.Proofs.Files
import Imageboard.Proofs.Files.Containment
import Imageboard.Proofs.Flags
import Imageboard.Proofs.Followers
import Imageboard.Proofs.Keys.Custody
import Imageboard.Proofs.Keys.Registry
import Imageboard.Proofs.Lifecycle.BareTombstones
import Imageboard.Proofs.Lifecycle.Burial
import Imageboard.Proofs.Lifecycle.Cascade
import Imageboard.Proofs.Lifecycle.Contents
import Imageboard.Proofs.Lifecycle.Creation
import Imageboard.Proofs.Lifecycle.Erasure
import Imageboard.Proofs.Lifecycle.Minting
import Imageboard.Proofs.Lifecycle.Renewal
import Imageboard.Proofs.Lifecycle.Repetition
import Imageboard.Proofs.Lifecycle.Replication
import Imageboard.Proofs.Lifecycle.Respelling
import Imageboard.Proofs.Lifecycle.Retyping
import Imageboard.Proofs.Operation
import Imageboard.Proofs.Path.Components
import Imageboard.Proofs.Placeholders
import Imageboard.Proofs.Shadowing
import Imageboard.Proofs.Signature.Request
import Imageboard.Proofs.Signature.Sending
import Imageboard.Proofs.Signature.SigningString
import Imageboard.Proofs.Signature.Spelling
import Imageboard.Proofs.Text.Bytes
import Imageboard.Proofs.Text.Cuts
import Imageboard.Proofs.Text.Marks
import Imageboard.Proofs.Threads
import Imageboard.Proofs.Tombstones
import Imageboard.Proofs.Tripcode
import Imageboard.Proofs.Wire.Envelope
import Imageboard.Proofs.Wire.RoundTrip
import Imageboard.Signature.Header
import Imageboard.Signature.Request
import Imageboard.Signature.SigningString
import Imageboard.Site
import Imageboard.Text.Blank
import Imageboard.Text.Bytes
import Imageboard.Text.Quoted
import Imageboard.Text.ShiftJis
import Imageboard.Text.ShiftJisRows
import Imageboard.Text.Visible
import Imageboard.Time.Civil
import Imageboard.Time.HttpDate
import Imageboard.Time.Instant
import Imageboard.Time.Rfc3339
import Imageboard.Tripcode
import Imageboard.Wire.Decode
import Imageboard.Wire.Encode
import Imageboard.Wire.Envelope
import Imageboard.Wire.Object
import Imageboard.Wire.ObjectType
