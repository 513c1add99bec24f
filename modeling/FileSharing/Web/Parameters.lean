import FileSharing.Web.Decision
import FileSharing.Web.Ledger

/-!
The way of the parameters from the matched route to the form that the gateway
decodes: mux variables, context values, form values and percent-encoding.
-/

namespace FileSharing
open Net Effects Mux

/-- The form the gateway decodes: the query of a GET, the body of a POST. -/
def GatewayRequest.fields (req : GatewayRequest) : Values :=
  parseQuery (if req.method = str "GET" then req.rawQuery else req.body)

/-- The word of a pattern that stands for a variable. -/
def braced (name : Bytes) : Bytes := openBrace :: name ++ [closeBrace]

/-- The segment of the path that takes the place of a variable of the pattern. -/
def Route.value (r : Route) (path name : Bytes) : Bytes :=
  ((((segments r.pattern).zip (segments path)).find? fun p => p.1 = braced name).map (·.2)).getD []

def baseFields : List Bytes := [str "storage", str "public", str "permanent", str "file"]

/-- The fields say where the request belongs, and carry what the user entered
under the given keys and nothing else. -/
structure Carries (sp : StorageParameters) (keys : List Bytes) (form fields : Values) : Prop where
  storage : fields.all (str "storage") = [sp.storageName]
  isPublic : fields.all (str "public") = if sp.isPublic then [str "true"] else []
  isPermanent : fields.all (str "permanent") = if sp.isPermanent then [str "true"] else []
  file : fields.all (str "file") = [sp.fileName]
  user : ∀ k ∈ keys, fields.all k = [form.get k]
  others : ∀ k, k ∉ baseFields → k ∉ keys → fields.all k = []

/-- The keys that a handler adds to the parameters of its route. -/
def HandlerName.userKeys : HandlerName → Option (List Bytes)
  | .indexHTMLHandler | .viewHandler | .getFileHandler => some []
  | .loginHandler => some [str "password"]
  | .shareTextHandler => some [str "title", str "body"]
  | .registerHandler | .uploadHandler | .removeHandler => none

section Values

theorem all_map_pairs {keys : List Bytes} (nodup : keys.Nodup) (f : Bytes → Bytes) (k : Bytes) :
    Values.all (keys.map fun k => (k, f k)) k = if k ∈ keys then [f k] else [] := by
  induction keys with
  | nil => rfl
  | cons key keys ih =>
      obtain ⟨fresh, nodup⟩ := List.nodup_cons.mp nodup
      rw [List.map_cons, Values.all_cons, ih nodup]
      by_cases here : key = k
      · subst here
        simp [fresh]
      · simp [here, Ne.symm here]

theorem all_values (sp : StorageParameters) (k : Bytes) :
    sp.values.all k =
      (if k = str "storage" then [sp.storageName] else []) ++
        ((if k = str "public" ∧ sp.isPublic then [str "true"] else []) ++
          ((if k = str "permanent" ∧ sp.isPermanent then [str "true"] else []) ++
            if k = str "file" then [sp.fileName] else [])) := by
  cases hpub : sp.isPublic <;> cases hper : sp.isPermanent <;>
    simp [StorageParameters.values, Values.add, hpub, hper, eq_comm (a := k)] <;>
    grind

variable (sp : StorageParameters) {keys : List Bytes}

/-- The values of a handler, before they are encoded. -/
theorem carries_values (nodup : keys.Nodup) (fresh : ∀ k ∈ keys, k ∉ baseFields) (form : Values) :
    Carries sp keys form (sp.values ++ keys.map fun k => (k, form.get k)) := by
  have base : ∀ k ∈ baseFields, k ∉ keys := fun k hk hkeys => fresh k hkeys hk
  have all : ∀ k, (sp.values ++ keys.map fun k => (k, form.get k)).all k =
      sp.values.all k ++ if k ∈ keys then [form.get k] else [] := by
    intro k
    rw [Values.all_append, all_map_pairs nodup]
  constructor
  · simp +decide [all, all_values, base (str "storage") (by decide)]
  · simp +decide [all, all_values, base (str "public") (by decide)]
  · simp +decide [all, all_values, base (str "permanent") (by decide)]
  · simp +decide [all, all_values, base (str "file") (by decide)]
  · intro k hk
    have other := fresh k hk
    simp only [baseFields, List.mem_cons, List.not_mem_nil, or_false, not_or] at other
    simp [all, all_values, hk, other]
  · intro k other hk
    simp only [baseFields, List.mem_cons, List.not_mem_nil, or_false, not_or] at other
    simp [all, all_values, hk, other]

/-- Encoding and decoding change no field. -/
theorem Carries.decoded {sp : StorageParameters} {keys : List Bytes} {form values : Values}
    (carries : Carries sp keys form values) :
    Carries sp keys form (parseQuery values.encode) := by
  constructor <;> simp only [all_parseQuery_encode]
  · exact carries.storage
  · exact carries.isPublic
  · exact carries.isPermanent
  · exact carries.file
  · exact carries.user
  · exact carries.others

variable (h : Handler) (r : Request) (name endpoint : Bytes)

theorem fields_postRequest (values : Values) :
    (h.postRequest r name endpoint values).fields = parseQuery values.encode := by
  have post : str "POST" ≠ str "GET" := by decide
  simp [GatewayRequest.fields, Handler.postRequest, post]

end Values

/-- Whatever a handler sends for its parameters carries them. -/
theorem sends_carries (h : Handler) (r : Request) {handler : HandlerName} {keys : List Bytes}
    (hkeys : handler.userKeys = some keys) {sp : StorageParameters}
    (hsp : requestParameters r = .ok sp) {name : Bytes} {req : GatewayRequest}
    (sent : h.sends r handler name req) :
    name = sp.storageName ∧ Carries sp keys r.form req.fields := by
  have get : ∀ values : Values, values = sp.values →
      Carries sp [] r.form (parseQuery values.encode) := by
    intro values hv
    have none : ([] : List Bytes).Nodup := List.nodup_nil
    have base := carries_values sp none (by simp) r.form
    rw [List.map_nil, List.append_nil, ← hv] at base
    exact base.decoded
  cases handler with
  | registerHandler | uploadHandler | removeHandler => cases hkeys
  | indexHTMLHandler | viewHandler | getFileHandler =>
      cases hkeys
      obtain ⟨sp', hsp', rfl, rfl⟩ := sent
      obtain rfl := requestParameters_unique hsp hsp'
      exact ⟨rfl, get _ rfl⟩
  | loginHandler =>
      cases hkeys
      obtain ⟨-, sp', hsp', rfl, rfl⟩ := sent
      obtain rfl := requestParameters_unique hsp hsp'
      rw [fields_postRequest]
      have keys : [str "password"].Nodup := by decide
      exact ⟨rfl, (carries_values sp' keys (by decide) r.form).decoded⟩
  | shareTextHandler =>
      cases hkeys
      obtain ⟨-, -, sp', hsp', rfl, rfl⟩ := sent
      obtain rfl := requestParameters_unique hsp hsp'
      rw [fields_postRequest]
      have keys : [str "title", str "body"].Nodup := by decide
      have carried := carries_values sp' keys (by decide) r.form
      refine ⟨rfl, ?_⟩
      simpa [Values.add, Request.formValue] using carried.decoded

/-- mux assigns to a variable the segment that stands in its place. -/
theorem varOf_captures {words segs caps : List Bytes}
    (closed : ∀ w ∈ words, w.head? = some openBrace → w = braced w.tail.dropLast)
    (hcaps : matchSegs (words.map fun w =>
      if w.head? = some openBrace then .var else .word w) segs = some caps) (name : Bytes) :
    varOf ((words.filterMap fun w =>
        if w.head? = some openBrace then some w.tail.dropLast else none).zip caps) name =
      (((words.zip segs).find? fun p => p.1 = braced name).map (·.2)).getD [] := by
  induction words generalizing segs caps with
  | nil => simp
  | cons w words ih =>
      have tail := fun w' hw' => closed w' (List.mem_cons_of_mem w hw')
      cases segs with
      | nil =>
          have length := matchSegs_length hcaps
          simp at length
      | cons s segs =>
          by_cases var : w.head? = some openBrace
          · have own := closed w List.mem_cons_self var
            rw [List.map_cons, if_pos var] at hcaps
            obtain ⟨rest, hrest, rfl⟩ := Option.map_eq_some_iff.mp hcaps
            have same : w = braced name ↔ w.tail.dropLast = name := by
              constructor
              · intro e
                simp [e, braced]
              · intro e
                rw [own, e]
            rw [List.filterMap_cons, if_pos var]
            simp only [List.zip_cons_cons, varOf_cons, List.find?_cons, ih tail hrest, same]
            by_cases e : w.tail.dropLast = name <;> simp [e]
          · have other : w ≠ braced name := by
              intro e
              rw [e] at var
              exact var rfl
            rw [List.map_cons, if_neg var, matchSegs] at hcaps
            split at hcaps
            · rw [List.filterMap_cons, if_neg var]
              simp [ih tail hcaps, other]
            · cases hcaps

theorem value_ne_nil_iff {r : Route} {path : Bytes}
    (length : (segments r.pattern).length = (segments path).length) (name : Bytes) :
    r.value path name ≠ [] ↔ braced name ∈ segments r.pattern := by
  rw [Route.value]
  cases found : ((segments r.pattern).zip (segments path)).find? fun p => p.1 = braced name with
  | none =>
      simp only [Option.map_none, Option.getD_none, ne_eq, not_true_eq_false, false_iff]
      intro hw
      obtain ⟨i, hi, at_i⟩ := List.mem_iff_getElem.mp hw
      have inside : i < ((segments r.pattern).zip (segments path)).length := by
        rw [List.length_zip]
        omega
      have pair := List.find?_eq_none.mp found _ (List.getElem_mem inside)
      simp [at_i] at pair
  | some p =>
      have member := List.of_mem_zip (List.mem_of_find?_eq_some found)
      have word : p.1 = braced name := by simpa using List.find?_some found
      simp only [Option.map_some, Option.getD_some]
      refine iff_of_true (isSegment_of_mem_segments member.2).nonempty ?_
      rw [← word]
      exact member.1

theorem braced_words : ∀ r ∈ configure, ∀ w ∈ segments r.pattern,
    w.head? = some openBrace → w = braced w.tail.dropLast := by
  decide

theorem handler_patterns : ∀ r ∈ configure, r.isPrefix → r.handler = .fileServer := by
  decide

/-- All handlers but the register handler work on the storage of their route. -/
theorem storage_patterns : ∀ r ∈ configure, r.handler ≠ .redirectCommon →
    r.handler ≠ .fileServer → r.handler ≠ .handler .registerHandler →
    braced (str "storage") ∈ segments r.pattern := by
  decide

end FileSharing
