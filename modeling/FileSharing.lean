import FileSharing.Effects.Program
import FileSharing.Net.Percent
import FileSharing.Net.Query
import FileSharing.Net.Path
import FileSharing.Net.Reference
import FileSharing.Mux.Regexp
import FileSharing.Net.Location
import FileSharing.Mux.Router
import FileSharing.Net.Fmt
import FileSharing.Net.Cookie
import FileSharing.Web.HttpError
import FileSharing.Web.ResponseWriter
import FileSharing.Web.Session
import FileSharing.Web.Template
import FileSharing.Web.Handler
import FileSharing.Web.Handlers
import FileSharing.Web.Routes
import FileSharing.Web.Exchange
import FileSharing.Web.Ledger
import FileSharing.Web.Bodies
import FileSharing.Web.OneResponse
import FileSharing.Web.Dispatch
import FileSharing.Web.Decision
import FileSharing.Web.Parameters
import FileSharing.Web.Isolation
import FileSharing.Web.Continuity
import FileSharing.Web.Uploads
import FileSharing.Net.Href
import FileSharing.Web.Page
import FileSharing.Web.Removal
import FileSharing.Net.Redirect
import FileSharing.Web.Following
import FileSharing.Web.Links
import FileSharing.Web.Addresses
import FileSharing.Web.Relay
import FileSharing.Web.Recovery
import FileSharing.Net.Disposition
import FileSharing.Web.Config
import FileSharing.Web.Downloads
import FileSharing.Web.Failures
import FileSharing.Net.MultipartReader
import FileSharing.Web.Rebuilding
import FileSharing.Mux.StrictSlash
import FileSharing.Web.Chains
import FileSharing.Effects.Machine
import FileSharing.Web.Completion
import FileSharing.Web.Independence
import FileSharing.Net.Json
import FileSharing.Net.CookieStore
import FileSharing.Net.Html
import FileSharing.Net.Script
import FileSharing.Web.Decoding
import FileSharing.Web.ErrorRelay
import FileSharing.Web.Forms
import FileSharing.Web.Sessions
import FileSharing.Web.Command
import FileSharing.Web.TextBox
import FileSharing.Web.Shutdown
import FileSharing.Web.FileTable
