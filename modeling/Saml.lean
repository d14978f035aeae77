import Saml.Xml.Emit
import Saml.Dsig.C14n
import Saml.Dsig.Verify
import Saml.Dsig.Sign
import Saml.AuthnContext
import Saml.Library.ContentModel
import Saml.Schema
import Saml.Schema.Walk
import Saml.Schema.Declared
import Saml.Library.BlockCipher
import Saml.Library.Run
import Saml.Library.Sorting
import Saml.Library.ExpiringSet
import Saml.Replay.Refinement
import Saml.Response.Parse
import Saml.Xml.Index
import Saml.Xml.WellIndexed
import Saml.Response.Validate
import Saml.Dsig.Coverage
import Saml.Dsig.Pruned
import Saml.Dsig.Sound
import Saml.Response.Located
import Saml.Response.Soundness
import Saml.Response.Wrapping
import Saml.Library.Markup
import Saml.Xml.Reader
import Saml.Random
import Saml.Xmlenc.Encrypt
import Saml.Response.Issue
import Saml.Binding
import Saml.Sp
import Saml.Replay.SingleUse
import Saml.Redirect
import Saml.Wire
import Saml.Logout.Request
import Saml.Logout.Response
import Saml.Inbound
import Saml.Idp
import Saml.Idp.Logout
import Saml.Proxy.Chain
import Saml.Proxy.ChainOutcomes
import Saml.Idp.SignedQuery
import Saml.Soap
import Saml.Sp.Logout
import Saml.Authn.Request
import Saml.Idp.Authn
import Saml.CarriedSignature
import Saml.Sp.Outbound
import Saml.Sp.Login
import Saml.Idp.Issue
import Saml.Proxy.Flow
import Saml.Library.Framing
import Saml.Library.Gregorian
import Saml.Proxy.NameId
import Saml.Library.Ranking
import Saml.AuthnContext.Comparison
import Saml.Response.Confirmation
import Saml.Time.Accepted
import Saml.Time.Lexical
import Saml.Time.Written
import Saml.Xml.Unnumbered
import Saml.Response.Issued
import Saml.Proxy.Relay
import Saml.Redirect.SignedOctets
import Saml.Redirect.RoundTrip
import Saml.Xml.Steps
import Saml.Xml.Scoped
import Saml.Xml.Accepted
import Saml.Xml.Marked
import Saml.Xml.Reparse
import Saml.Xml.Sound
import Saml.Xml.Plain
import Saml.Xml.Writable
import Saml.Dsig.AncestorChain
import Saml.Library.Association
import Saml.Dsig.Scope
import Saml.Dsig.Inclusive
import Saml.Dsig.Shuffled
import Saml.Dsig.FirstDeclared
import Saml.Dsig.OrderFree
import Saml.Dsig.OrderSeen
import Saml.Response.Positions
import Saml.Artifact
import Saml.Idp.ArtifactResolve
import Saml.Replay.ResolveUse
import Saml.Idp.Destination
import Saml.Xml.Built
import Saml.Dsig.Built
import Saml.Dsig.Writable
import Saml.Response.Issuable
import Saml.Proxy.Preflight
import Saml.Disco.Cookie
import Saml.Disco.Form
import Saml.Disco.Service
import Saml.Disco.RoundTrip
import Saml.Metadata.Parse
import Saml.Metadata.Stream
import Saml.Metadata.Signed
import Saml.Metadata.Reading
import Saml.Metadata.Duration
import Saml.Metadata.Entities
import Saml.Metadata.Expiry
import Saml.Sp.Pinned
import Saml.Proxy.OneLogin
import Saml.Xml.Limits
import Saml.Xml.Normalized
import Saml.Xmlenc.Cbc
import Saml.Dsig.Enveloped
import Saml.Schema.Content
import Saml.Xmlenc.RoundTrip
import Saml.Response.Encrypted
import Saml.Metadata.Seed
import Saml.Metadata.Tracking
import Saml.Metadata.Visited
import Saml.Metadata.Agreement
import Saml.Metadata.Tally
import Saml.Dsig.Canonical
import Saml.Dsig.RoundTrip
import Saml.Dsig.ReadBack
import Saml.Response.Readers
import Saml.Time.Millis
import Saml.Response.Content
import Saml.Response.Accepted
import Saml.Response.Delivered
import Saml.Response.SignOn
import Saml.Message
import Saml.FrontChannel
import Saml.Authn.Message
import Saml.SignOn.Request
import Saml.SignOn.Login
