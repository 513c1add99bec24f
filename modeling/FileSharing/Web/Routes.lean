import FileSharing.Mux.Router
import FileSharing.Web.Handlers

/-!
Package `router`: the route table, its registration on the mux router, and what
a request runs into once the router has chosen.
-/

namespace FileSharing
open Net Effects

/-- The values of the Handler field in the route table. -/
inductive Endpoint where
  | redirectCommon
  | fileServer
  | handler (name : HandlerName)
deriving DecidableEq

structure Route where
  pattern : Bytes
  isPrefix : Bool
  methods : Bytes
  isPublic : Bool
  permanentPath : Bool
  handler : Endpoint
deriving DecidableEq

def configure : List Route :=
  [ { pattern := str "/", isPrefix := false, methods := str "GET", isPublic := true
      permanentPath := false, handler := .redirectCommon },
    { pattern := str "/res/", isPrefix := true, methods := str "GET", isPublic := true
      permanentPath := false, handler := .fileServer },
    { pattern := str "/register/", isPrefix := false, methods := str "GET,POST", isPublic := true
      permanentPath := false, handler := .handler .registerHandler },
    { pattern := str "/login/{storage}/", isPrefix := false, methods := str "GET,POST"
      isPublic := true, permanentPath := false, handler := .handler .loginHandler },
    { pattern := str "/{storage}/index.html", isPrefix := false, methods := str "GET"
      isPublic := false, permanentPath := false, handler := .handler .indexHTMLHandler },
    { pattern := str "/{storage}/permanent/index.html", isPrefix := false, methods := str "GET"
      isPublic := false, permanentPath := true, handler := .handler .indexHTMLHandler },
    { pattern := str "/{storage}/permanent/{file}/", isPrefix := false, methods := str "GET"
      isPublic := false, permanentPath := true, handler := .handler .getFileHandler },
    { pattern := str "/{storage}/permanent/", isPrefix := false, methods := str "GET"
      isPublic := false, permanentPath := true, handler := .handler .viewHandler },
    { pattern := str "/{storage}/{file}/", isPrefix := false, methods := str "GET"
      isPublic := false, permanentPath := false, handler := .handler .getFileHandler },
    { pattern := str "/{storage}/", isPrefix := false, methods := str "GET"
      isPublic := false, permanentPath := false, handler := .handler .viewHandler },
    { pattern := str "/{storage}/upload/", isPrefix := false, methods := str "POST"
      isPublic := false, permanentPath := false, handler := .handler .uploadHandler },
    { pattern := str "/{storage}/permanent/upload/", isPrefix := false, methods := str "POST"
      isPublic := false, permanentPath := true, handler := .handler .uploadHandler },
    { pattern := str "/{storage}/remove/", isPrefix := false, methods := str "POST"
      isPublic := false, permanentPath := false, handler := .handler .removeHandler },
    { pattern := str "/{storage}/permanent/remove/", isPrefix := false, methods := str "POST"
      isPublic := false, permanentPath := true, handler := .handler .removeHandler },
    { pattern := str "/{storage}/shareText/", isPrefix := false, methods := str "POST"
      isPublic := false, permanentPath := false, handler := .handler .shareTextHandler },
    { pattern := str "/{storage}/permanent/shareText/", isPrefix := false, methods := str "POST"
      isPublic := false, permanentPath := true, handler := .handler .shareTextHandler } ]

/-- A map lookup: empty when there is no such variable. -/
def varOf (vars : List (Bytes × Bytes)) (name : Bytes) : Bytes :=
  ((vars.find? fun v => v.1 = name).map (·.2)).getD []

/-- mux.Vars(request)[name]. -/
def muxVar (request : Request) (name : Bytes) : Bytes :=
  match request.ctx.value (.mux 0) with
  | some (.vars vars) => varOf vars name
  | _ => []

/-- The request as storeRouterParametes passes it on. -/
def withRouterParameters (isPublic isPermanent : Bool) (request : Request) : Request :=
  let ctx := Ctxinfo.withPublicStorage request.ctx isPublic
  let storage := muxVar request (str "storage")
  let ctx :=
    if storage ≠ [] then
      Ctxinfo.withPermanentStorage (Ctxinfo.withUserName ctx storage) isPermanent
    else ctx
  let fileName := muxVar request (str "file")
  let ctx := if fileName ≠ [] then Ctxinfo.withFileName ctx fileName else ctx
  { request with ctx }

def storeRouterParametes (isPublic isPermanent : Bool) (next : Request → Act Completion)
    (request : Request) : Act Completion :=
  next (withRouterParameters isPublic isPermanent request)

/-- What the router of the service holds: the metrics page that the service
package registers, and the routes of the table. -/
inductive Registered where
  | metrics
  | route (r : Route)
deriving DecidableEq

def addRoute (router : Mux.Router Registered) (route : Route) : Mux.Router Registered :=
  let muxRoute := (Mux.newRoute : Mux.Route Registered)
  let muxRoute :=
    if route.isPrefix then
      muxRoute.addRegexpMatcher route.pattern .pathPrefix router.strictSlash
    else muxRoute.addRegexpMatcher route.pattern .path router.strictSlash
  let muxRoute := muxRoute.addMethods (route.methods.splitOn 0x2C)
  { router with routes := router.routes ++ [muxRoute.setHandler (.route route)] }

/-- The check that authEnabled asks for is commented out in the source. -/
def makeRoutes (router : Mux.Router Registered) (_authEnabled : Bool) : Mux.Router Registered :=
  configure.foldl addRoute router

/-- The router of service.Run, before its setup function is called. -/
def serviceRouter : Mux.Router Registered :=
  let router := (Mux.newRouter true : Mux.Router Registered)
  let metrics := (Mux.newRoute : Mux.Route Registered).addRegexpMatcher (str "/metrics/") .path
    router.strictSlash
  { router with routes := router.routes ++ [metrics.setHandler .metrics] }

/-- The routes on an otherwise empty router, or on the one the service runs. -/
def routes (deployed : Bool) : Mux.Router Registered :=
  makeRoutes (if deployed then serviceRouter else Mux.newRouter true) true

def Endpoint.serveHTTP (h : Handler) (request : Request) : Endpoint → Act Completion
  | .redirectCommon => do
    httpRedirect h.lib request (str "/common/") 301
    pure .returned
  | .fileServer => do
    tell (.serveFile request.url.path)
    pure .returned
  | .handler name => do
    h.run name request
    pure .returned

def Registered.serveHTTP (h : Handler) (request : Request) : Registered → Act Unit
  | .metrics => tell .serveMetrics
  | .route r =>
    h.recoverMiddleware
      (storeRouterParametes r.isPublic r.permanentPath fun request =>
        r.handler.serveHTTP h request)
      request

def notFound : Act Unit := do
  tell (.setHeader (str "Content-Type") (str "text/plain; charset=utf-8"))
  tell (.setHeader (str "X-Content-Type-Options") (str "nosniff"))
  tell (.writeHeader 404)
  tell (.write (str "404 page not found\n"))

/-- The request as the router hands it to the chosen handler. -/
def Incoming.routed (request : Incoming) (vars : List (Bytes × Bytes)) : Request :=
  request.withContext (Context.withValue [] (.mux 0) (.vars vars))

/-- The request that reaches the handler of a route. -/
def Route.request (r : Route) (request : Incoming) (vars : List (Bytes × Bytes)) : Request :=
  withRouterParameters r.isPublic r.permanentPath (request.routed vars)

/-- The service's answer to a request, from the router on. -/
def serveHTTP (h : Handler) (deployed : Bool) (request : Incoming) : Act Unit :=
  match (routes deployed).serveHTTP ⟨request.method, request.url⟩ with
  | .redirect location => do
    tell (.setHeader (str "Location") location)
    tell (.writeHeader 301)
  | .redirectHandler url => httpRedirect h.lib (request.withContext []) url 301
  | .handle target vars => target.serveHTTP h (request.routed vars)
  | .methodNotAllowed => tell (.writeHeader 405)
  | .notFound => notFound

end FileSharing
