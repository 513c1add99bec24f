import FileSharing.Web.Dispatch

/-!
The specification of the route table: one decision list per method over the
segments of the path, in the order of the table. The scan computes it for every
clean path, and turns a path in the other trailing-slash form into a redirect.
-/

namespace FileSharing
open Net Effects Mux

/-- An endpoint with the parameters it is reached with. -/
structure Answer where
  endpoint : Endpoint
  storage : Bytes
  isPermanent : Bool
  file : Bytes
deriving DecidableEq

def Endpoint.isPublic : Endpoint → Bool
  | .redirectCommon | .fileServer | .handler .registerHandler | .handler .loginHandler => true
  | .handler _ => false

def Answer.parameters (a : Answer) : StorageParameters :=
  { storageName := a.storage, isPublic := a.endpoint.isPublic, isPermanent := a.isPermanent
    fileName := a.file }

def getCases : List (List Bytes → Option Answer) :=
  [ fun
      | [] => some ⟨.redirectCommon, [], false, []⟩
      | _ => none,
    fun
      | s :: _ => if s = str "res" then some ⟨.fileServer, [], false, []⟩ else none
      | _ => none,
    fun
      | [s] => if s = str "register" then some ⟨.handler .registerHandler, [], false, []⟩ else none
      | _ => none,
    fun
      | [l, s] => if l = str "login" then some ⟨.handler .loginHandler, s, false, []⟩ else none
      | _ => none,
    fun
      | [s, f] =>
        if f = str "index.html" then some ⟨.handler .indexHTMLHandler, s, false, []⟩ else none
      | _ => none,
    fun
      | [s, p, f] =>
        if p = str "permanent" ∧ f = str "index.html" then
          some ⟨.handler .indexHTMLHandler, s, true, []⟩
        else none
      | _ => none,
    fun
      | [s, p, f] =>
        if p = str "permanent" then some ⟨.handler .getFileHandler, s, true, f⟩ else none
      | _ => none,
    fun
      | [s, p] => if p = str "permanent" then some ⟨.handler .viewHandler, s, true, []⟩ else none
      | _ => none,
    fun
      | [s, f] => some ⟨.handler .getFileHandler, s, false, f⟩
      | _ => none,
    fun
      | [s] => some ⟨.handler .viewHandler, s, false, []⟩
      | _ => none ]

/-- The storage operations that are posted. -/
def operation (op : Bytes) : Option HandlerName :=
  if op = str "upload" then some .uploadHandler
  else if op = str "remove" then some .removeHandler
  else if op = str "shareText" then some .shareTextHandler
  else none

def postCases : List (List Bytes → Option Answer) :=
  [ fun
      | [s] => if s = str "register" then some ⟨.handler .registerHandler, [], false, []⟩ else none
      | _ => none,
    fun
      | [l, s] => if l = str "login" then some ⟨.handler .loginHandler, s, false, []⟩ else none
      | _ => none,
    fun
      | [s, op] => (operation op).map fun name => ⟨.handler name, s, false, []⟩
      | [s, p, op] =>
        if p = str "permanent" then (operation op).map fun name => ⟨.handler name, s, true, []⟩
        else none
      | _ => none ]

/-- The first case that fits. -/
def decision (method : Bytes) (segs : List Bytes) : Option Answer :=
  if method = str "GET" then getCases.findSome? (· segs)
  else if method = str "POST" then postCases.findSome? (· segs)
  else none

/-- Whether the path is written with the trailing slash, or without it, as the
pattern of the endpoint is. -/
def Answer.ownForm (a : Answer) (segs : List Bytes) (trailing : Bool) : Bool :=
  match a.endpoint with
  | .redirectCommon => true
  | .fileServer => trailing || segs.length > 1
  | .handler .indexHTMLHandler => !trailing
  | .handler _ => trailing

/-- A pattern fits segments word by word; a braced word fits anything. -/
def fitsWords : List Bytes → List Bytes → Bool
  | [], [] => true
  | w :: ws, s :: segs => decide (w.head? = some openBrace ∨ s = w) && fitsWords ws segs
  | _, _ => false

def Route.fitsPath (r : Route) (segs : List Bytes) : Bool :=
  if r.isPrefix then decide (segments r.pattern <+: segs)
  else fitsWords (segments r.pattern) segs

/-- The specification of the whole table. -/
def expected (method : Bytes) (segs : List Bytes) (trailing : Bool) (rawQuery : Bytes) :
    Dispatched :=
  match decision method segs with
  | some a =>
    if a.ownForm segs trailing then .endpoint a.endpoint (.ok a.parameters)
    else .redirectHandler (toggleSlash ⟨pathOf segs trailing, rawQuery⟩).string
  | none => if configure.any (·.fitsPath segs) then .methodNotAllowed else .notFound

theorem literal_iff {segs : List Bytes} (hs : ∀ s ∈ segs, IsSegment s) (trailing : Bool) :
    str "/res/" <+: pathOf segs trailing ↔
      segs.head? = some (str "res") ∧ (trailing = true ∨ 1 < segs.length) := by
  have text : str "/res/" = slash :: str "res" ++ [slash] := by decide
  rw [text]
  exact word_isPrefix_iff (by decide) hs trailing

@[simp] theorem varOf_nil (name : Bytes) : varOf [] name = [] := rfl

@[simp] theorem varOf_cons (name value : Bytes) (vars : List (Bytes × Bytes)) (name' : Bytes) :
    varOf ((name, value) :: vars) name' = if name = name' then value else varOf vars name' := by
  by_cases h : name = name' <;> simp [varOf, h]

/-- The patterns of the table by their words. -/
theorem patterns_eq : configure.map (fun r => (r.isPrefix, segments r.pattern)) =
    [(false, []), (true, [str "res"]), (false, [str "register"]),
      (false, [str "login", str "{storage}"]), (false, [str "{storage}", str "index.html"]),
      (false, [str "{storage}", str "permanent", str "index.html"]),
      (false, [str "{storage}", str "permanent", str "{file}"]),
      (false, [str "{storage}", str "permanent"]), (false, [str "{storage}", str "{file}"]),
      (false, [str "{storage}"]), (false, [str "{storage}", str "upload"]),
      (false, [str "{storage}", str "permanent", str "upload"]),
      (false, [str "{storage}", str "remove"]),
      (false, [str "{storage}", str "permanent", str "remove"]),
      (false, [str "{storage}", str "shareText"]),
      (false, [str "{storage}", str "permanent", str "shareText"])] := by
  decide

/-- The paths that some pattern fits. -/
def fitsSome (segs : List Bytes) : Bool :=
  decide (segs.length ≤ 2 ∨ segs.head? = some (str "res") ∨
    segs.length = 3 ∧ segs[1]? = some (str "permanent"))

theorem any_fitsPath (segs : List Bytes) : configure.any (·.fitsPath segs) = fitsSome segs := by
  have patterns := congrArg
    (List.any · fun p : Bool × List Bytes =>
      if p.1 then decide (p.2 <+: segs) else fitsWords p.2 segs)
    patterns_eq
  rw [List.any_map] at patterns
  refine patterns.trans ?_
  match segs with
  | [] => decide
  | [s] => simp +decide [fitsWords, fitsSome]
  | [a, b] => simp +decide [fitsWords, fitsSome]
  | [a, b, c] =>
    by_cases ha : a = str "res" <;> by_cases hb : b = str "permanent" <;>
      simp +decide [fitsWords, fitsSome, ha, hb, eq_comm (a := str "res")]
  | a :: b :: c :: d :: rest =>
    by_cases ha : a = str "res" <;>
      simp +decide [fitsWords, fitsSome, ha, eq_comm (a := str "res")]

theorem any_captures {segs : List Bytes} (hs : ∀ s ∈ segs, IsSegment s) (trailing : Bool) :
    (table.any fun row => (row.captures segs trailing).isSome) = fitsSome segs := by
  have lit := literal_iff hs trailing
  match segs with
  | [] => simp +decide [table, Row.captures, matchSegs, fitsSome]
  | [s] => simp +decide [table, Row.captures, matchSegs, fitsSome]
  | [a, b] => simp +decide [table, Row.captures, matchSegs, fitsSome]
  | [a, b, c] =>
    by_cases hb : b = str "permanent"
    · simp +decide [table, Row.captures, matchSegs, fitsSome, hb]
    · by_cases ha : a = str "res"
      · subst ha
        simp +decide [table, Row.captures, matchSegs, fitsSome, lit, hb]
      · simp +decide [table, Row.captures, matchSegs, fitsSome, lit, ha, hb]
  | a :: b :: c :: d :: rest =>
    by_cases ha : a = str "res"
    · subst ha
      simp +decide [table, Row.captures, matchSegs, fitsSome, lit]
    · simp +decide [table, Row.captures, matchSegs, fitsSome, lit, ha]

section Scan
variable {segs : List Bytes} (hs : ∀ s ∈ segs, IsSegment s) (trailing : Bool) (rawQuery : Bytes)
include hs

/-- Without a route for the method, what remains is whether the path fits. -/
theorem scan_none {method : Bytes}
    (unmatched : ∀ row ∈ table, (row.captures segs trailing).isSome → method ∉ row.methods)
    (undecided : decision method segs = none) :
    scan table method segs trailing ⟨pathOf segs trailing, rawQuery⟩ =
      expected method segs trailing rawQuery := by
  have none : (table.find? fun row =>
      (row.captures segs trailing).isSome && row.methods.contains method) = none := by
    refine List.find?_eq_none.mpr ?_
    intro row hrow
    simpa using unmatched row hrow
  have fit := (any_captures hs trailing).trans (any_fitsPath segs).symm
  simp only [scan, none, expected, undecided, fit]

attribute [local simp] scan expected decision table Row.captures matchSegs Row.answer get post
  storageVar fileVars Answer.ownForm Answer.parameters Endpoint.isPublic getCases postCases
  operation

omit hs in
theorem scan_root : scan table (str "GET") [] trailing ⟨pathOf [] trailing, rawQuery⟩ =
    expected (str "GET") [] trailing rawQuery := by
  cases trailing <;> rfl

theorem scan_get_one {s : Bytes} (one : segs = [s]) :
    scan table (str "GET") segs trailing ⟨pathOf segs trailing, rawQuery⟩ =
      expected (str "GET") segs trailing rawQuery := by
  subst one
  have lit := literal_iff hs trailing
  have slashed := hasSlash_pathOf hs (List.cons_ne_nil _ _) trailing
  have hne := (hs s (by simp)).nonempty
  by_cases res : s = str "res"
  · subst res
    cases trailing <;> simp +decide [slashed]
  · by_cases register : s = str "register"
    · subst register
      cases trailing <;> simp +decide [slashed]
    · cases trailing <;> simp +decide [lit, slashed, res, register, hne]

theorem scan_get_two {s f : Bytes} (two : segs = [s, f]) :
    scan table (str "GET") segs trailing ⟨pathOf segs trailing, rawQuery⟩ =
      expected (str "GET") segs trailing rawQuery := by
  subst two
  have lit := literal_iff hs trailing
  have slashed := hasSlash_pathOf hs (List.cons_ne_nil _ _) trailing
  have hne := (hs s (by simp)).nonempty
  by_cases res : s = str "res"
  · subst res
    simp +decide [lit]
  · by_cases login : s = str "login"
    · subst login
      cases trailing <;> simp +decide [lit, slashed]
    · by_cases index : f = str "index.html"
      · subst index
        cases trailing <;> simp +decide [lit, slashed, res, login, hne]
      · by_cases permanent : f = str "permanent"
        · subst permanent
          cases trailing <;> simp +decide [lit, slashed, res, login, hne]
        · cases trailing <;> simp +decide [lit, slashed, res, login, index, permanent, hne]

theorem scan_get_three {s p f : Bytes} (three : segs = [s, p, f]) :
    scan table (str "GET") segs trailing ⟨pathOf segs trailing, rawQuery⟩ =
      expected (str "GET") segs trailing rawQuery := by
  subst three
  have lit := literal_iff hs trailing
  have slashed := hasSlash_pathOf hs (List.cons_ne_nil _ _) trailing
  have hne := (hs s (by simp)).nonempty
  by_cases res : s = str "res"
  · subst res
    simp +decide [lit]
  · by_cases permanent : p = str "permanent"
    · subst permanent
      by_cases index : f = str "index.html"
      · subst index
        cases trailing <;> simp +decide [lit, slashed, res, hne]
      · cases trailing <;> simp +decide [lit, slashed, res, index, hne]
    · apply scan_none hs
      · simp +decide [lit, res, permanent]
      · simp +decide [res, permanent]

theorem scan_get :
    scan table (str "GET") segs trailing ⟨pathOf segs trailing, rawQuery⟩ =
      expected (str "GET") segs trailing rawQuery := by
  match segs with
  | [] => exact scan_root trailing rawQuery
  | [s] => exact scan_get_one hs trailing rawQuery rfl
  | [s, f] => exact scan_get_two hs trailing rawQuery rfl
  | [s, p, f] => exact scan_get_three hs trailing rawQuery rfl
  | a :: b :: c :: d :: rest =>
    have lit := literal_iff hs trailing
    by_cases res : a = str "res"
    · subst res
      simp +decide [lit]
    · apply scan_none hs
      · simp +decide [lit, res]
      · simp +decide [res]

theorem scan_post_two {s op : Bytes} (two : segs = [s, op]) :
    scan table (str "POST") segs trailing ⟨pathOf segs trailing, rawQuery⟩ =
      expected (str "POST") segs trailing rawQuery := by
  subst two
  have slashed := hasSlash_pathOf hs (List.cons_ne_nil _ _) trailing
  have hne := (hs s (by simp)).nonempty
  by_cases login : s = str "login"
  · subst login
    have hne := (hs op (by simp)).nonempty
    cases trailing <;> simp +decide [slashed, hne]
  · by_cases upload : op = str "upload"
    · subst upload
      cases trailing <;> simp +decide [slashed, login, hne]
    · by_cases remove : op = str "remove"
      · subst remove
        cases trailing <;> simp +decide [slashed, login, hne]
      · by_cases share : op = str "shareText"
        · subst share
          cases trailing <;> simp +decide [slashed, login, hne]
        · apply scan_none hs
          · simp +decide [login, upload, remove, share]
          · simp +decide [login, upload, remove, share]

theorem scan_post_three {s p op : Bytes} (three : segs = [s, p, op]) :
    scan table (str "POST") segs trailing ⟨pathOf segs trailing, rawQuery⟩ =
      expected (str "POST") segs trailing rawQuery := by
  subst three
  have slashed := hasSlash_pathOf hs (List.cons_ne_nil _ _) trailing
  have hne := (hs s (by simp)).nonempty
  by_cases permanent : p = str "permanent"
  · subst permanent
    by_cases upload : op = str "upload"
    · subst upload
      cases trailing <;> simp +decide [slashed, hne]
    · by_cases remove : op = str "remove"
      · subst remove
        cases trailing <;> simp +decide [slashed, hne]
      · by_cases share : op = str "shareText"
        · subst share
          cases trailing <;> simp +decide [slashed, hne]
        · apply scan_none hs
          · simp +decide [upload, remove, share]
          · simp +decide [upload, remove, share]
  · apply scan_none hs
    · simp +decide [permanent]
    · simp +decide [permanent]

theorem scan_post :
    scan table (str "POST") segs trailing ⟨pathOf segs trailing, rawQuery⟩ =
      expected (str "POST") segs trailing rawQuery := by
  match segs with
  | [] =>
    apply scan_none hs
    · simp +decide
    · decide
  | [s] =>
    have slashed := hasSlash_pathOf hs (List.cons_ne_nil _ _) trailing
    by_cases register : s = str "register"
    · subst register
      cases trailing <;> simp +decide [slashed]
    · apply scan_none hs
      · simp +decide [register]
      · simp +decide [register]
  | [s, op] => exact scan_post_two hs trailing rawQuery rfl
  | [s, p, op] => exact scan_post_three hs trailing rawQuery rfl
  | a :: b :: c :: d :: rest =>
    apply scan_none hs
    · simp +decide
    · simp +decide

/-- The scan of the table computes its specification, whatever the method. -/
theorem scan_eq_expected (method : Bytes) :
    scan table method segs trailing ⟨pathOf segs trailing, rawQuery⟩ =
      expected method segs trailing rawQuery := by
  by_cases get : method = str "GET"
  · rw [get]
    exact scan_get hs trailing rawQuery
  · by_cases post : method = str "POST"
    · rw [post]
      exact scan_post hs trailing rawQuery
    · apply scan_none hs
      · intro row hrow _ allowed
        have only : ∀ row ∈ table, ∀ m ∈ row.methods, m = str "GET" ∨ m = str "POST" := by
          decide
        exact (only row hrow method allowed).elim get post
      · simp only [decision, get, post, if_false]

end Scan

/-- The cases of the decision list, each without the paths of the cases before it. -/
inductive Decided : Bytes → List Bytes → Answer → Prop where
  | redirectCommon : Decided (str "GET") [] ⟨.redirectCommon, [], false, []⟩
  | fileServer (segs : List Bytes) :
      Decided (str "GET") (str "res" :: segs) ⟨.fileServer, [], false, []⟩
  | register {method : Bytes} (hm : method = str "GET" ∨ method = str "POST") :
      Decided method [str "register"] ⟨.handler .registerHandler, [], false, []⟩
  | login {method : Bytes} (hm : method = str "GET" ∨ method = str "POST") (s : Bytes) :
      Decided method [str "login", s] ⟨.handler .loginHandler, s, false, []⟩
  | index {s : Bytes} (hres : s ≠ str "res") (hlogin : s ≠ str "login") :
      Decided (str "GET") [s, str "index.html"] ⟨.handler .indexHTMLHandler, s, false, []⟩
  | indexPermanent {s : Bytes} (hres : s ≠ str "res") :
      Decided (str "GET") [s, str "permanent", str "index.html"]
        ⟨.handler .indexHTMLHandler, s, true, []⟩
  | filePermanent {s f : Bytes} (hres : s ≠ str "res") (hindex : f ≠ str "index.html") :
      Decided (str "GET") [s, str "permanent", f] ⟨.handler .getFileHandler, s, true, f⟩
  | viewPermanent {s : Bytes} (hres : s ≠ str "res") (hlogin : s ≠ str "login") :
      Decided (str "GET") [s, str "permanent"] ⟨.handler .viewHandler, s, true, []⟩
  | file {s f : Bytes} (hres : s ≠ str "res") (hlogin : s ≠ str "login")
      (hindex : f ≠ str "index.html") (hpermanent : f ≠ str "permanent") :
      Decided (str "GET") [s, f] ⟨.handler .getFileHandler, s, false, f⟩
  | view {s : Bytes} (hres : s ≠ str "res") (hregister : s ≠ str "register") :
      Decided (str "GET") [s] ⟨.handler .viewHandler, s, false, []⟩
  | operation {s op : Bytes} {name : HandlerName} (hlogin : s ≠ str "login")
      (hop : FileSharing.operation op = some name) :
      Decided (str "POST") [s, op] ⟨.handler name, s, false, []⟩
  | operationPermanent (s : Bytes) {op : Bytes} {name : HandlerName}
      (hop : FileSharing.operation op = some name) :
      Decided (str "POST") [s, str "permanent", op] ⟨.handler name, s, true, []⟩

theorem operation_handler {op : Bytes} {name : HandlerName} (hop : operation op = some name) :
    name = .uploadHandler ∨ name = .removeHandler ∨ name = .shareTextHandler := by
  unfold operation at hop
  split at hop
  · exact .inl (Option.some_inj.mp hop).symm
  · split at hop
    · exact .inr (.inl (Option.some_inj.mp hop).symm)
    · split at hop
      · exact .inr (.inr (Option.some_inj.mp hop).symm)
      · cases hop

theorem operation_permanent : operation (str "permanent") = none := by decide

theorem decision_iff {method : Bytes} {segs : List Bytes} {a : Answer} :
    decision method segs = some a ↔ Decided method segs a := by
  constructor
  · intro ha
    unfold decision at ha
    split at ha
    · rename_i get
      subst get
      match segs with
      | [] | [s] | [s, p] | [s, p, f] | s :: p :: f :: d :: rest =>
        simp [getCases, List.findSome?_cons] at ha
        grind [Decided]
    · split at ha
      · rename_i post
        subst post
        match segs with
        | [] => cases ha
        | [s] =>
          simp [postCases, List.findSome?_cons] at ha
          grind [Decided]
        | [s, op] | [s, p, op] =>
          cases posted : operation op <;>
            simp [postCases, List.findSome?_cons, posted] at ha <;> grind [Decided]
        | s :: p :: f :: d :: rest => cases ha
      · cases ha
  · intro decided
    cases decided with
    | redirectCommon => rfl
    | fileServer segs => simp +decide [decision, getCases]
    | register hm => obtain rfl | rfl := hm <;> rfl
    | login hm s => obtain rfl | rfl := hm <;> simp +decide [decision, getCases, postCases]
    | index hres hlogin => simp +decide [decision, getCases, hres, hlogin]
    | indexPermanent hres => simp +decide [decision, getCases, hres]
    | filePermanent hres hindex => simp +decide [decision, getCases, hres, hindex]
    | viewPermanent hres hlogin => simp +decide [decision, getCases, hres, hlogin]
    | file hres hlogin hindex hpermanent =>
        simp +decide [decision, getCases, hres, hlogin, hindex, hpermanent]
    | view hres hregister => simp +decide [decision, getCases, hres, hregister]
    | operation hlogin hop => simp +decide [decision, postCases, hlogin, hop]
    | operationPermanent s hop => simp +decide [decision, postCases, hop]

/-- Only login can be reached with `permanent` in second place and without the
permanent flag. -/
theorem decision_permanent {method : Bytes} {segs : List Bytes} {a : Answer} {name : HandlerName}
    (ha : decision method segs = some a) (he : a.endpoint = .handler name)
    (hname : name ≠ .loginHandler) :
    a.isPermanent = true ↔ segs[1]? = some (str "permanent") := by
  cases decision_iff.mp ha with
  | redirectCommon | fileServer => cases he
  | login =>
      cases he
      exact absurd rfl hname
  | register | view => simp
  | index => simp +decide
  | indexPermanent | filePermanent | viewPermanent | operationPermanent => simp
  | file _ _ _ hpermanent => simpa using hpermanent
  | @operation s op name _ hop =>
      have other : op ≠ str "permanent" := by
        rintro rfl
        rw [operation_permanent] at hop
        cases hop
      simpa using other

/-- The routes on their own compute the specification. -/
theorem dispatch_expected (request : Incoming) {segs : List Bytes} (hs : ∀ s ∈ segs, IsSegment s)
    (trailing : Bool) (hpath : request.url.path = pathOf segs trailing) :
    dispatch false request = expected request.method segs trailing request.url.rawQuery := by
  have url : request.url = ⟨pathOf segs trailing, request.url.rawQuery⟩ := by
    rw [← hpath]
  rw [dispatch_eq_scan request hs trailing hpath, table_eq, url]
  exact scan_eq_expected hs trailing request.url.rawQuery request.method

/-- What a request that reaches a handler shows about its path. -/
theorem dispatch_endpoint {deployed : Bool} {request : Incoming} {e : Endpoint}
    {p : Except Bytes StorageParameters} (reached : dispatch deployed request = .endpoint e p) :
    ∃ trailing a, request.url.path = pathOf (segments request.url.path) trailing ∧
      decision request.method (segments request.url.path) = some a ∧
      a.ownForm (segments request.url.path) trailing = true ∧
      e = a.endpoint ∧ p = .ok a.parameters := by
  have served : ∃ r vars,
      (routes deployed).serveHTTP ⟨request.method, request.url⟩ = .handle (.route r) vars := by
    rw [dispatch] at reached
    split at reached
    · exact ⟨_, _, ‹_›⟩
    all_goals cases reached
  obtain ⟨r, vars, served⟩ := served
  obtain ⟨-, trailing, caps, hpath, -, -⟩ := handled served
  have hs : ∀ s ∈ segments request.url.path, IsSegment s := fun s hs => isSegment_of_mem_segments hs
  have alone : dispatch false request = .endpoint e p := by
    cases deployed with
    | false => exact reached
    | true =>
        rw [dispatch_deployed request hs trailing hpath] at reached
        split at reached
        · split at reached <;> cases reached
        · exact reached
  rw [dispatch_expected request hs trailing hpath, expected] at alone
  split at alone
  · rename_i a ha
    split at alone
    · rename_i own
      injection alone with he hp
      exact ⟨trailing, a, hpath, ha, own, he.symm, hp.symm⟩
    · cases alone
  · split at alone <;> cases alone

/-- A storage is named by a segment of the path, and for a handler that works on
it. -/
theorem decision_storage {method : Bytes} {segs : List Bytes} {a : Answer}
    (ha : decision method segs = some a) (named : a.storage ≠ []) :
    a.storage ∈ segs ∧ ∃ name, a.endpoint = .handler name ∧ name ≠ .registerHandler := by
  cases decision_iff.mp ha with
  | redirectCommon | fileServer | register => exact absurd rfl named
  | login | index | indexPermanent | filePermanent | viewPermanent | file | view =>
      exact ⟨by simp, _, rfl, by simp⟩
  | operation _ hop | operationPermanent _ hop =>
      refine ⟨by simp, _, rfl, ?_⟩
      obtain rfl | rfl | rfl := operation_handler hop <;> simp

theorem decision_redirectCommon {method : Bytes} {segs : List Bytes} {a : Answer}
    (ha : decision method segs = some a) (common : a.endpoint = .redirectCommon) : segs = [] := by
  cases decision_iff.mp ha with
  | redirectCommon => rfl
  | _ => cases common

/-- First-match dispatch is the decision list, for every method and every clean
path; and apart from login a handler works on the permanent area exactly when
the second segment says so. -/
theorem dispatch_eq_expected (request : Incoming) (segs : List Segment) (trailing : Bool)
    (rawQuery : Bytes) :
    dispatch false { request with url := ⟨pathOf (segs.map (·.1)) trailing, rawQuery⟩ } =
        expected request.method (segs.map (·.1)) trailing rawQuery ∧
      ∀ name sp,
        dispatch false { request with url := ⟨pathOf (segs.map (·.1)) trailing, rawQuery⟩ } =
          .endpoint (.handler name) (.ok sp) →
        name ≠ .loginHandler →
        (sp.isPermanent = true ↔ (segs.map (·.1))[1]? = some (str "permanent")) := by
  have hs : ∀ s ∈ segs.map (·.1), IsSegment s := by
    intro s hs
    obtain ⟨seg, -, rfl⟩ := List.mem_map.mp hs
    exact seg.2
  have spec : dispatch false
      { request with url := ⟨pathOf (segs.map (·.1)) trailing, rawQuery⟩ } =
        expected request.method (segs.map (·.1)) trailing rawQuery :=
    dispatch_expected _ hs trailing rfl
  refine ⟨spec, ?_⟩
  intro name sp reached hname
  rw [spec, expected] at reached
  split at reached
  · rename_i a ha
    split at reached
    · injection reached with he hsp
      injection hsp with hsp
      rw [← hsp]
      exact decision_permanent ha he hname
    · cases reached
  · split at reached <;> cases reached

/-- The upload to the permanent area. -/
theorem dispatch_eq_expected_permanent :
    let request : Incoming :=
      { method := str "POST", url := ⟨str "/a/permanent/upload/", []⟩, cookies := [], form := []
        multipart := .error [] }
    dispatch false request =
        .endpoint (.handler .uploadHandler) (.ok ⟨str "a", false, true, []⟩) ∧
      (true = true ↔ [str "a", str "permanent", str "upload"][1]? = some (str "permanent")) := by
  let segs : List Segment :=
    [⟨str "a", by decide⟩, ⟨str "permanent", by decide⟩, ⟨str "upload", by decide⟩]
  obtain ⟨reached, permanent⟩ := dispatch_eq_expected
    { method := str "POST", url := ⟨[], []⟩, cookies := [], form := [], multipart := .error [] }
    segs true []
  have upload : expected (str "POST") (segs.map (·.1)) true [] =
      .endpoint (.handler .uploadHandler) (.ok ⟨str "a", false, true, []⟩) := by
    rfl
  exact ⟨reached.trans upload, permanent .uploadHandler _ (reached.trans upload) (by decide)⟩

end FileSharing
