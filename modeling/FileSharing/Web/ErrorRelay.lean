import FileSharing.Web.Decoding
import FileSharing.Web.Relay

/-!
Errors on their way through services of this kind. A handler that answers with JSON
writes the refusal of its gateway so that its own client decodes the same error, and
so it stays over any number of services.
-/

namespace FileSharing
open Net Effects

/-- What a response other than a 200 tells. -/
def refusal (rsp : GatewayResponse) : Int × Bytes :=
  if rsp.statusCode = 400 then
    (decodeError rsp.body).getD (codeInternalError, str "json decode")
  else (codeInternalError, str "invalid status code")

/-- One service: its gateway gave the first response, and the client got the second
one, under any transport. -/
inductive Hop : GatewayResponse → GatewayResponse → Prop where
  | relay {h : Handler} {text : Body → Bytes} {name : HandlerName} {r : Request} {t : Trace}
      {storage : Bytes} {req : GatewayRequest} {rsp rsp' : GatewayResponse}
      (json : name.answersJSON = true) (run : Program.Runs ((h.withJson text).run name r) t ())
      (gateway : asked storage req (.ok rsp) ∈ t)
      (status : (response t).status = some rsp'.statusCode)
      (body : rsp'.body.data = (response t).body) : Hop rsp rsp'

theorem refusal_wellformed (rsp : GatewayResponse) : Wellformed (refusal rsp) := by
  have fits : Int64 codeInternalError := by decide
  rw [refusal]
  split
  · cases decoded : decodeError rsp.body with
    | none => exact ⟨fits, by decide⟩
    | some e => exact decodeError_wellformed decoded
  · exact ⟨fits, by decide⟩

/-- The error that the handler makes of a response. -/
theorem gatewayError_refusal (h : Handler) (text : Body → Bytes) (rsp : GatewayResponse) :
    ((h.withJson text).gatewayError rsp).code = (refusal rsp).1 ∧
      ((h.withJson text).gatewayError rsp).description = (refusal rsp).2 := by
  rw [Handler.gatewayError, refusal]
  split
  · cases decoded : decodeError rsp.body with
    | none => simp [Handler.withJson, Stdlib.withJson, decoded, HttpError.withError,
        HttpError.newInternalError, HttpError.new, codeInternalError, codeInvalidParams]
    | some e => simp [Handler.withJson, Stdlib.withJson, decoded]
  · exact ⟨rfl, rfl⟩

/-- One service hands the refusal on. -/
theorem hop_refusal {rsp rsp' : GatewayResponse} (hop : Hop rsp rsp')
    (refused : rsp.statusCode ≠ 200) :
    rsp'.statusCode = 400 ∧ rsp'.body.data = encodeError (refusal rsp).1 (refusal rsp).2 := by
  cases hop with
  | @relay h text name r t storage req _ _ json run gateway status body =>
      have both := (run_reported (h.withJson text) r json).and (run_ledger (h.withJson text) r name)
      obtain ⟨reported, ledger⟩ := (Program.ensures_iff_runs _ _).mp both t () run
      obtain ⟨pre, name', req', es, hpre, ⟨handler, rfl⟩, rfl⟩ :=
        reported.failure ledger gateway (not_accepted_ok refused)
      have told := jsonError_unseen (h.withJson text).lib
        ((unseen_prepared hpre).asked name' req' (.ok rsp))
        ((h.withJson text).replyError (.ok rsp)) handler
      rw [List.append_assoc, List.singleton_append] at told
      have same := gatewayError_refusal h text rsp
      have sent := told.status
      rw [status] at sent
      refine ⟨Option.some_inj.mp sent, ?_⟩
      have written := told.body
      rw [body, written]
      simp only [Handler.replyError, same]
      rfl

theorem refusal_of_hop {rsp rsp' : GatewayResponse} (hop : Hop rsp rsp')
    (refused : rsp.statusCode ≠ 200) : decodeError rsp'.body = some (refusal rsp) := by
  have well := refusal_wellformed rsp
  have read := decodeError_encodeError well.code (refusal rsp).2 [] rsp'.body.id rsp'.body.err
  rwa [List.append_nil, ← (hop_refusal hop refused).2, well.description] at read

/-- However many services an error has passed, the client is sent the one error that
the first of them was told, and decodes it. -/
theorem error_relayed {first last : GatewayResponse} (refused : first.statusCode ≠ 200)
    (hops : Relation.TransGen Hop first last) :
    last.statusCode = 400 ∧ last.body.data = encodeError (refusal first).1 (refusal first).2 ∧
      decodeError last.body = some (refusal first) := by
  induction hops with
  | single hop =>
      have handed := hop_refusal hop refused
      exact ⟨handed.1, handed.2, refusal_of_hop hop refused⟩
  | @tail middle last hops hop ih =>
      have refused : middle.statusCode ≠ 200 := by
        rw [ih.1]
        decide
      have same : refusal middle = refusal first := by
        rw [refusal, if_pos ih.1, ih.2.2]
        rfl
      have handed := hop_refusal hop refused
      have read := refusal_of_hop hop refused
      rw [same] at handed read
      exact ⟨handed.1, handed.2, read⟩

/-- A download that the gateway refuses in its own spelling, on a connection that
breaks behind the answer. -/
theorem error_relayed_download :
    let first : GatewayResponse :=
      ⟨400, [], ⟨0, str "\x7b \"Description\":\"gone\", \"code\":5 \x7d", none⟩⟩
    let last : GatewayResponse := ⟨400, [], ⟨1, encodeError 5 (str "gone"), some (str "reset")⟩⟩
    last.statusCode = 400 ∧ last.body.data = encodeError (refusal first).1 (refusal first).2 ∧
      decodeError last.body = some (refusal first) := by
  intro first last
  let r : Request :=
    { method := str "GET", url := ⟨str "/a/b/", []⟩, cookies := [], form := []
      multipart := .error [], ctx := [] }
  let reply : Except Bytes GatewayResponse := .ok first
  let p := (Handler.plain.withJson fun _ => []).run .getFileHandler r
  have runs : p.Ensures fun t a => p.Runs t a :=
    (Program.ensures_iff_runs _ _).mpr fun _ _ run => run
  have run := runs reply () () () ()
  refine error_relayed (by decide) (.single (.relay rfl run List.mem_cons_self ?_ ?_))
  · rfl
  · decide +kernel

end FileSharing
