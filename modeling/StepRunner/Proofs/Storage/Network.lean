import StepRunner.Proofs.Action
import StepRunner.Proofs.Url.Form
import StepRunner.Storage.Network

namespace StepRunner.Network

variable {url : Url} {fields : List (List Char × List Char)} {w w' : World Network}
  {result : Except StorageError Reply}

/-- Why a request is not sent or not answered, if it is not. -/
def refusal? (reachable : Bool) (url : Url) (fields : List (List Char × List Char)) :
    Option StorageError :=
  if url.host?.isNone then some (failure "builder error" url)
  else if !isSendable (requestUrl url fields) then
    some (failure "builder error" (requestUrl url fields))
  else if !reachable then some (failure "error sending request" (requestUrl url fields))
  else none

/-- The URL of a request as it is sent. -/
def sentUrl (url : Url) (fields : List (List Char × List Char)) : Url :=
  { requestUrl url fields with fragment := none }

/-- The world after a request: an answer is gone, and the request is written down. -/
def answered (w : World Network) (text : String) : World Network :=
  { w with remote := { w.remote with
      replies := w.remote.replies.tail
      requests := w.remote.requests ++ [text] } }

@[simp] theorem answered_machine (w : World Network) (text : String) :
    (answered w text).machine = w.machine := rfl

@[simp] theorem answered_reachable (w : World Network) (text : String) :
    (answered w text).remote.reachable = w.remote.reachable := rfl

@[simp] theorem answered_replies (w : World Network) (text : String) :
    (answered w text).remote.replies = w.remote.replies.tail := rfl

@[simp] theorem answered_requests (w : World Network) (text : String) :
    (answered w text).remote.requests = w.remote.requests ++ [text] := rfl

/-- A request that is refused does nothing. Any other one takes the next answer. -/
theorem request_run (url : Url) (fields : List (List Char × List Char)) (w : World Network) :
    (request url fields).run w =
      match refusal? w.remote.reachable url fields with
      | some e => (.error e, w)
      | none => (.ok (w.remote.replies.headD exhausted), answered w (sentUrl url fields).text) := by
  unfold request refusal?
  split
  · rfl
  dsimp only
  split
  · rfl
  rw [Action.run_bind, Action.run_get]
  dsimp only
  split <;> rfl

theorem isSendable_of_refusal? {reachable : Bool} (h : refusal? reachable url fields = none) :
    url.host?.isSome ∧ isSendable (requestUrl url fields) = true := by
  unfold refusal? at h
  split at h
  · cases h
  split at h
  · cases h
  · next hhost hsend => exact ⟨by simpa [Option.isSome_iff_ne_none] using hhost, by simpa using hsend⟩

/-- What is asked for has the scheme, the host and the path of the URL. -/
theorem sentUrl_eq (url : Url) (fields : List (List Char × List Char)) :
    (sentUrl url fields).scheme = url.scheme ∧ (sentUrl url fields).path = url.path ∧
      (sentUrl url fields).host? = url.host? ∧ (sentUrl url fields).fragment = none := by
  have hhost : url.withoutUser.host? = url.host? := by
    unfold Url.host? Url.withoutUser
    cases url.authority <;> rfl
  unfold sentUrl requestUrl
  split <;> split
  · exact ⟨rfl, rfl, hhost, rfl⟩
  · exact ⟨rfl, rfl, hhost, rfl⟩
  · exact ⟨rfl, rfl, rfl, rfl⟩
  · exact ⟨rfl, rfl, rfl, rfl⟩

/-- Without fields the query stays as it is. -/
theorem query_sentUrl_nil (url : Url) : (sentUrl url []).query = url.query := by
  unfold sentUrl requestUrl
  split <;> rfl

/-- The query that is sent has the fields that the URL has of its own and after them the ones that
    were added. -/
theorem formFields_sentUrl (url : Url) (hne : fields ≠ []) :
    ((sentUrl url fields).query.map Url.formFields).getD [] =
      Url.formFields (url.query.getD []) ++ fields.map fun field =>
        (Text.encodeUtf8 field.1, Text.encodeUtf8 field.2) := by
  have hquery : (sentUrl url fields).query =
      if Url.addFields (url.query.getD []) fields = [] then none
      else some (Url.addFields (url.query.getD []) fields) := by
    unfold sentUrl requestUrl
    rw [if_neg hne]
    split <;> rfl
  rw [hquery, ← Url.formFields_addFields]
  split
  · next hnil => rw [hnil]; rfl
  · rfl

end StepRunner.Network
