import StepRunner.Proofs.Storage.Memory
import StepRunner.Proofs.Storage.Network
import StepRunner.Storage.Http

namespace StepRunner.HttpStorage

open Network

variable {server : HttpStorage} {base dir bucket basePath : String} {start : List Char}
  {item : Storage.Item} {items : List Storage.Item} {found : List (Option RemoteObject)}
  {object : RemoteObject} {objects : List RemoteObject} {page : Storage.Page} {url : Url}
  {token : Option String} {reply : Reply} {e : StorageError} {w w' : World Network}
  {reachable : Bool}

/-- Whether an item tells of an object below a directory: its name goes on after the beginning that
    the names there have in common, and does not end like that of a directory. -/
def isKept (start : List Char) (item : Storage.Item) : Bool :=
  (Text.dropStart? start item.name.toList).any fun rest => rest ≠ [] ∧ rest.getLast? ≠ some '/'

/-- The size that an item tells of, or 0 if it tells of none. -/
def itemSize? (item : Storage.Item) : Option Nat :=
  match item.size with
  | none => some 0
  | some size => Text.unsigned? Text.maxWord64 size.toList

/-- `IsObjectOf start item object` says that an object is the one that an item tells of, with the
    rest of its name as path. -/
structure IsObjectOf (start : List Char) (item : Storage.Item) (object : RemoteObject) : Prop where
  name : item.name.toList = start ++ object.relativePath.toList
  updated : object.updated = item.updated
  size : itemSize? item = some object.size

/-- Whether the size of an item is no number, and the error that tells so. -/
def HasBadSize (item : Storage.Item) (e : StorageError) : Prop :=
  itemSize? item = none ∧ ∃ size, item.size = some size ∧
    e = .unreadableListing ("bad size `" ++ size ++ "` for " ++ item.name)

theorem itemObject?_cases (start : List Char) (item : Storage.Item) :
    (isKept start item = false ∧ itemObject? start item = .ok none) ∨
    (isKept start item = true ∧ ∃ object, itemObject? start item = .ok (some object) ∧
      IsObjectOf start item object) ∨
    (isKept start item = true ∧ ∃ e, itemObject? start item = .error e ∧ HasBadSize item e) := by
  unfold itemObject? isKept
  cases hrest : Text.dropStart? start item.name.toList with
  | none => exact Or.inl ⟨rfl, rfl⟩
  | some rest =>
    have hname := Text.dropStart?_eq_some_iff.1 hrest
    dsimp only [Option.any_some]
    by_cases hskip : rest = [] ∨ rest.getLast? = some '/'
    · refine Or.inl ⟨?_, by rw [if_pos hskip]⟩
      rw [decide_eq_false_iff_not, ← not_or, not_not]
      exact hskip
    have hkept : decide (rest ≠ [] ∧ rest.getLast? ≠ some '/') = true := by
      rw [decide_eq_true_eq, ← not_or]
      exact hskip
    refine Or.inr ?_
    rw [if_neg hskip]
    cases hsize : item.size with
    | none =>
      refine Or.inl ⟨hkept, _, rfl, ?_, rfl, ?_⟩
      · rw [hname, String.toList_ofList]
      · rw [itemSize?, hsize]
    | some size =>
      cases hnumber : Text.unsigned? Text.maxWord64 size.toList with
      | some n =>
        refine Or.inl ⟨hkept, ⟨String.ofList rest, item.updated, n⟩, by simp only [hnumber], ?_, rfl, ?_⟩
        · rw [hname, String.toList_ofList]
        · rw [itemSize?, hsize]
          exact hnumber
      | none =>
        refine Or.inr ⟨hkept, _, by simp only [hnumber], ?_, size, hsize, rfl⟩
        rw [itemSize?, hsize]
        exact hnumber

theorem mapM_itemObject?_ok (h : items.mapM (itemObject? start) = .ok found) :
    List.Forall₂ (IsObjectOf start) (items.filter (isKept start)) (found.filterMap id) := by
  rw [mapM_eq_ok_iff] at h
  induction h with
  | nil => exact .nil
  | @cons item result items others hitem _ ih =>
    rcases itemObject?_cases start item with ⟨hskip, heq⟩ | ⟨hkept, object, heq, hobject⟩ |
      ⟨_, e, heq, _⟩ <;> rw [heq] at hitem <;> cases hitem
    · rwa [List.filter_cons_of_neg (by simp [hskip])]
    · rw [List.filter_cons_of_pos hkept]
      exact .cons hobject ih

/-- The items of a page cannot be read if the size of one that is kept is no number. The error tells
    of the first such one. -/
theorem mapM_itemObject?_error (h : items.mapM (itemObject? start) = .error e) :
    ∃ before item after, items = before ++ item :: after ∧ isKept start item = true ∧
      HasBadSize item e ∧ ∀ other ∈ before, isKept start other = true → itemSize? other ≠ none := by
  obtain ⟨before, item, after, hsplit, hitem, hbefore⟩ := mapM_eq_error_iff.1 h
  rcases itemObject?_cases start item with ⟨_, heq⟩ | ⟨_, _, heq, _⟩ |
    ⟨hkept, _, heq, hbad⟩ <;> rw [heq] at hitem <;> cases hitem
  refine ⟨before, item, after, hsplit, hkept, hbad, fun other hother hkept' => ?_⟩
  obtain ⟨result, hresult⟩ := hbefore other hother
  rcases itemObject?_cases start other with ⟨hskip, _⟩ | ⟨_, _, _, hobject⟩ | ⟨_, _, heq, _⟩
  · rw [hskip] at hkept'
    cases hkept'
  · simp [hobject.size]
  · rw [heq] at hresult
    cases hresult

/-- The text of an answer. -/
def replyText (reply : Reply) : String := String.ofList (Text.decodeUtf8Lossy reply.body)

/-- `Tells start reply objects next` says that an answer is a page that tells of some objects, in the
    order of its items, and of the token for the next page. -/
def Tells (start : List Char) (reply : Reply) (objects : List RemoteObject)
    (next : Option String) : Prop :=
  reply.isSuccess = true ∧ ∃ page, Storage.Page.parse? (replyText reply) = some page ∧
    page.nextToken = next ∧
    List.Forall₂ (IsObjectOf start) (page.items.filter (isKept start)) objects

/-- `Breaks url start reply e` says that an answer ends a listing with an error: it does not tell of
    success, it is no page, or the size of one of the items that are kept is no number. -/
def Breaks (url : Url) (start : List Char) (reply : Reply) (e : StorageError) : Prop :=
  (reply.isSuccess = false ∧
    e = .http ("listing " ++ url.text ++ " returned " ++ reply.statusText)) ∨
  (reply.isSuccess = true ∧ Storage.Page.parse? (replyText reply) = none ∧
    e = .json "the page cannot be read") ∨
  (reply.isSuccess = true ∧ ∃ page before item after,
    Storage.Page.parse? (replyText reply) = some page ∧ page.items = before ++ item :: after ∧
    isKept start item = true ∧ HasBadSize item e ∧
    ∀ other ∈ before, isKept start other = true → itemSize? other ≠ none)

/-- The fields that a listing adds to the query of a page. -/
def pageFields (start : List Char) (token : Option String) : List (List Char × List Char) :=
  ("prefix".toList, start) :: (token.map fun t => ("pageToken".toList, t.toList)).toList

/-- What is read from an answer, or why it cannot be read. -/
def readPage (url : Url) (reply : Reply) : Except StorageError Storage.Page :=
  if !reply.isSuccess then
    .error (.http ("listing " ++ url.text ++ " returned " ++ reply.statusText))
  else
    match Storage.Page.parse? (replyText reply) with
    | some page => .ok page
    | none => .error (.json "the page cannot be read")

theorem fetchPage_run (hurl : server.listUrl bucket = .ok url) (start : List Char)
    (token : Option String) (w : World Network) :
    (server.fetchPage bucket start token).run w =
      match refusal? w.remote.reachable url (pageFields start token) with
      | some e => (.error e, w)
      | none => (readPage url (w.remote.replies.headD exhausted),
          answered w (sentUrl url (pageFields start token)).text) := by
  rw [fetchPage, Action.run_bind, Action.run_lift, hurl]
  dsimp only
  rw [Action.run_bind, request_run, ← pageFields]
  cases refusal? w.remote.reachable url (pageFields start token) with
  | some e => rfl
  | none =>
    dsimp only
    unfold readPage
    split
    · rfl
    · rw [replyText]
      cases Storage.Page.parse? _ <;> rfl

theorem pageObjects_eq_ok (h : pageObjects start page = .ok objects) :
    List.Forall₂ (IsObjectOf start) (page.items.filter (isKept start)) objects := by
  rw [pageObjects] at h
  cases hread : page.items.mapM (itemObject? start) with
  | error e => rw [hread] at h; cases h
  | ok found =>
    rw [hread] at h
    cases h
    exact mapM_itemObject?_ok hread

/-- An answer is a page that tells of objects, or it breaks the listing. -/
theorem readPage_cases (url : Url) (start : List Char) (reply : Reply) :
    (∃ e, readPage url reply = .error e ∧ Breaks url start reply e) ∨
    ∃ page, readPage url reply = .ok page ∧
      ((∃ e, pageObjects start page = .error e ∧ Breaks url start reply e) ∨
        ∃ objects, pageObjects start page = .ok objects ∧
          Tells start reply objects page.nextToken) := by
  unfold readPage
  split
  · next hfails => exact Or.inl ⟨_, rfl, Or.inl ⟨by simpa using hfails, rfl⟩⟩
  next hsuccess =>
  have hsuccess : reply.isSuccess = true := by simpa using hsuccess
  cases hparse : Storage.Page.parse? (replyText reply) with
  | none => exact Or.inl ⟨_, rfl, Or.inr (Or.inl ⟨hsuccess, hparse, rfl⟩)⟩
  | some page =>
    refine Or.inr ⟨page, rfl, ?_⟩
    cases hread : pageObjects start page with
    | ok objects => exact Or.inr ⟨objects, rfl, hsuccess, page, hparse, rfl, pageObjects_eq_ok hread⟩
    | error e =>
      rw [pageObjects] at hread
      cases hitems : page.items.mapM (itemObject? start) with
      | ok found => rw [hitems] at hread; cases hread
      | error e' =>
        rw [hitems] at hread
        cases hread
        obtain ⟨before, item, after, hsplit, hkept, hbad, hbefore⟩ := mapM_itemObject?_error hitems
        exact Or.inl ⟨_, rfl, Or.inr (Or.inr ⟨hsuccess, page, before, item, after, hparse, hsplit,
          hkept, hbad, hbefore⟩)⟩

/-- A page that is not the last one: the answer, the objects that it tells of and the token for the
    next page. -/
structure PassedPage where
  reply : Reply
  objects : List RemoteObject
  next : String

/-- The tokens of the requests of a listing that has passed some pages. -/
def tokens (first : Option String) (pages : List PassedPage) : List (Option String) :=
  first :: pages.map fun page => some page.next

/-- The requests of pages with some tokens. -/
def pageRequests (url : Url) (start : List Char) (tokens : List (Option String)) : List String :=
  tokens.map fun token => (sentUrl url (pageFields start token)).text

/-- How a listing ends after it has passed some pages: with a page that tells of no other one, with
    an answer that breaks it, or with a request that is not sent. When no answers are left there is
    one more, which tells of failure. -/
inductive Ends (url : Url) (start : List Char) (reachable : Bool) (first : Option String)
    (replies : List Reply) (pages : List PassedPage) :
    List String → Except StorageError (List RemoteObject) → Prop
  | whole {last : Reply} {objects : List RemoteObject}
    (answers : pages.map (·.reply) ++ [last] <+: replies ++ [exhausted])
    (tells : Tells start last objects none) :
    Ends url start reachable first replies pages (pageRequests url start (tokens first pages))
      (.ok (pages.flatMap (·.objects) ++ objects))
  | broken {last : Reply} {e : StorageError}
    (answers : pages.map (·.reply) ++ [last] <+: replies ++ [exhausted])
    (breaks : Breaks url start last e) :
    Ends url start reachable first replies pages (pageRequests url start (tokens first pages))
      (.error e)
  | unsent {token : Option String} {e : StorageError} (answers : pages.map (·.reply) <+: replies)
    (last : (tokens first pages).getLast? = some token)
    (refused : refusal? reachable url (pageFields start token) = some e) :
    Ends url start reachable first replies pages
      (pageRequests url start (tokens first pages).dropLast) (.error e)

/-- `Follows url start reachable first replies asked result` says that a listing passes some pages, each
    of which tells of the next one, and then ends. -/
def Follows (url : Url) (start : List Char) (reachable : Bool) (first : Option String)
    (replies : List Reply) (asked : List String)
    (result : Except StorageError (List RemoteObject)) : Prop :=
  ∃ pages, (∀ page ∈ pages, Tells start page.reply page.objects (some page.next)) ∧
    Ends url start reachable first replies pages asked result

/-- One page more before the others. -/
theorem Follows.cons {next : String} {replies : List Reply} {asked : List String}
    {result : Except StorageError (List RemoteObject)}
    (h : Follows url start reachable (some next) replies asked result)
    (htells : Tells start reply objects (some next)) :
    Follows url start reachable token (reply :: replies)
      ((sentUrl url (pageFields start token)).text :: asked) (result.map (objects ++ ·)) := by
  obtain ⟨pages, hpages, hends⟩ := h
  refine ⟨⟨reply, objects, next⟩ :: pages, List.forall_mem_cons.2 ⟨htells, hpages⟩, ?_⟩
  cases hends with
  | whole answers tells =>
    rw [Except.map, ← List.append_assoc]
    exact .whole (List.cons_prefix_cons.2 ⟨rfl, answers⟩) tells
  | broken answers breaks => exact .broken (List.cons_prefix_cons.2 ⟨rfl, answers⟩) breaks
  | unsent answers last refused =>
    exact .unsent (List.cons_prefix_cons.2 ⟨rfl, answers⟩) last refused

/-- Pages are followed as long as there are answers. -/
theorem fetchPages_follows {fuel : Nat} {result : Except StorageError (List RemoteObject)}
    (hurl : server.listUrl bucket = .ok url) (hfuel : w.remote.replies.length < fuel)
    (hrun : (server.fetchPages bucket start fuel token).run w = (result, w')) :
    ∃ asked, w'.remote.requests = w.remote.requests ++ asked ∧
      Follows url start w.remote.reachable token w.remote.replies asked result := by
  induction fuel generalizing token w w' result with
  | zero => omega
  | succ fuel ih =>
    rw [fetchPages, Action.run_bind, fetchPage_run hurl] at hrun
    cases hrefused : refusal? w.remote.reachable url (pageFields start token) with
    | some e =>
      rw [hrefused] at hrun
      cases hrun
      exact ⟨[], (List.append_nil _).symm, [], by simp, .unsent (List.nil_prefix) rfl hrefused⟩
    | none =>
    rw [hrefused] at hrun
    dsimp only at hrun
    have hanswer : [w.remote.replies.headD exhausted] <+: w.remote.replies ++ [exhausted] := by
      cases w.remote.replies <;> simp
    rcases readPage_cases url start (w.remote.replies.headD exhausted) with ⟨e, hread, hbreaks⟩ |
      ⟨page, hread, ⟨e, hobjects, hbreaks⟩ | ⟨objects, hobjects, htells⟩⟩ <;> rw [hread] at hrun
    · cases hrun
      exact ⟨_, rfl, [], by simp, .broken hanswer hbreaks⟩
    · dsimp only at hrun
      rw [Action.run_bind, Action.run_lift, hobjects] at hrun
      cases hrun
      exact ⟨_, rfl, [], by simp, .broken hanswer hbreaks⟩
    dsimp only at hrun
    rw [Action.run_bind, Action.run_lift, hobjects] at hrun
    dsimp only at hrun
    cases hnext : page.nextToken with
    | none =>
      rw [hnext] at hrun htells
      cases hrun
      exact ⟨_, rfl, [], by simp, .whole hanswer htells⟩
    | some next =>
      rw [hnext] at hrun htells
      dsimp only at hrun
      -- There was an answer, for the one that is given when none is left tells of no page.
      obtain ⟨reply, rest, hreplies⟩ : ∃ reply rest, w.remote.replies = reply :: rest := by
        cases hreplies : w.remote.replies with
        | nil =>
          rw [hreplies] at htells
          exact absurd htells.1 (by decide)
        | cons reply rest => exact ⟨reply, rest, rfl⟩
      rw [hreplies] at htells hfuel ⊢
      rw [Action.run_bind] at hrun
      cases hmore : (server.fetchPages bucket start fuel (some next)).run
          (answered w (sentUrl url (pageFields start token)).text) with
      | mk more w₁ =>
        have hfuel' : (answered w (sentUrl url (pageFields start token)).text).remote.replies.length <
            fuel := by
          rw [answered_replies, hreplies]
          exact Nat.lt_of_succ_lt_succ hfuel
        obtain ⟨asked, hrequests, hfollows⟩ := ih hfuel' hmore
        rw [answered_replies, answered_reachable, hreplies] at hfollows
        rw [answered_requests, List.append_assoc] at hrequests
        rw [hmore] at hrun
        cases more with
        | error e =>
          cases hrun
          exact ⟨_, hrequests, hfollows.cons htells⟩
        | ok others =>
          cases hrun
          exact ⟨_, hrequests, hfollows.cons htells⟩

/-- The query of the request for a page. -/
theorem formFields_page (url : Url) (start : List Char) (token : Option String) :
    ((sentUrl url (pageFields start token)).query.map Url.formFields).getD [] =
      Url.formFields (url.query.getD []) ++
        (Text.encodeUtf8 "prefix".toList, Text.encodeUtf8 start) ::
          (token.map fun t => (Text.encodeUtf8 "pageToken".toList, Text.encodeUtf8 t.toList)).toList := by
  rw [formFields_sentUrl url (by simp [pageFields])]
  cases token <;> rfl

/-- The server lists a bucket if its URL can be read and has a path of segments. -/
theorem listUrl_eq_ok {apiUrl : Url} {names : List (List Char)}
    (hparse : Url.parse server.apiBase = .ok apiUrl) (hpath : apiUrl.path = .segments names)
    (bucket : String) : ∃ url, server.listUrl bucket = .ok url ∧ url.query = apiUrl.query := by
  unfold listUrl withSegments Url.extend?
  rw [hparse]
  dsimp only
  rw [hpath]
  exact ⟨_, rfl, rfl⟩

/-- A listing asks for pages, and then tells how many objects there are. -/
theorem list_fetches {result : Except StorageError (List RemoteObject)}
    (hbase : Storage.bucketAndPath base = .ok (bucket, basePath))
    (hrun : (server.list base dir).run w = (result, w')) : ∃ w₁,
    (server.fetchPages bucket (namesStart basePath dir) (w.remote.replies.length + 1) none).run w =
      (result, w₁) ∧ w'.remote = w₁.remote := by
  rw [list, Action.run_bind, Action.run_lift, hbase] at hrun
  dsimp only at hrun
  rw [Action.run_bind, Action.run_get] at hrun
  dsimp only at hrun
  rw [Action.run_bind] at hrun
  cases hpages : (server.fetchPages bucket (namesStart basePath dir)
      (w.remote.replies.length + 1) none).run w with
  | mk outcome w₁ =>
    rw [hpages] at hrun
    cases outcome <;> cases hrun <;> exact ⟨_, rfl, rfl⟩

/-- A listing follows the pages of a server, whose URL must have a path of segments. It asks for the
    first page without a token and for each other one with the token of the page before, until a
    page has none; then it gives the objects of all of them. An answer that breaks it, or a request
    that is not sent, ends it with an error. The query of each request has the fields of the
    server's URL, then the beginning of all names and then the token, if there is one. -/
theorem list_follows_pages {result : Except StorageError (List RemoteObject)} {apiUrl : Url}
    {names : List (List Char)} (hbase : Storage.bucketAndPath base = .ok (bucket, basePath))
    (hparse : Url.parse server.apiBase = .ok apiUrl) (hpath : apiUrl.path = .segments names)
    (hrun : (server.list base dir).run w = (result, w')) :
    ∃ url asked, server.listUrl bucket = .ok url ∧
      w'.remote.requests = w.remote.requests ++ asked ∧
      Follows url (namesStart basePath dir) w.remote.reachable none w.remote.replies asked result ∧
      ∀ token, ((sentUrl url (pageFields (namesStart basePath dir) token)).query.map
          Url.formFields).getD [] =
        Url.formFields (apiUrl.query.getD []) ++
          (Text.encodeUtf8 "prefix".toList, Text.encodeUtf8 (namesStart basePath dir)) ::
            (token.map fun t => (Text.encodeUtf8 "pageToken".toList, Text.encodeUtf8 t.toList)).toList := by
  obtain ⟨url, hurl, hquery⟩ := listUrl_eq_ok hparse hpath bucket
  obtain ⟨w₁, hpages, hremote⟩ := list_fetches hbase hrun
  obtain ⟨asked, hrequests, hfollows⟩ := fetchPages_follows hurl (Nat.lt_succ_self _) hpages
  exact ⟨url, asked, hurl, hremote ▸ hrequests, hfollows,
    fun token => hquery ▸ formFields_page url _ token⟩

theorem Tells.exists_item {next : Option String} (h : Tells start reply objects next)
    (hmem : object ∈ objects) : ∃ page, Storage.Page.parse? (replyText reply) = some page ∧
      ∃ item ∈ page.items, IsObjectOf start item object := by
  obtain ⟨_, page, hparse, _, hobjects⟩ := h
  have hitem {items : List Storage.Item} {objects : List RemoteObject}
      (hall : List.Forall₂ (IsObjectOf start) items objects) (hmem : object ∈ objects) :
      ∃ item ∈ items, IsObjectOf start item object := by
    induction hall with
    | nil => cases hmem
    | cons hfirst _ ih =>
      rcases List.mem_cons.1 hmem with rfl | hmem
      · exact ⟨_, List.mem_cons_self, hfirst⟩
      · obtain ⟨item, hitem, hobject⟩ := ih hmem
        exact ⟨item, List.mem_cons_of_mem _ hitem, hobject⟩
  obtain ⟨item, hmem, hobject⟩ := hitem hobjects hmem
  exact ⟨page, hparse, item, (List.mem_filter.1 hmem).1, hobject⟩

/-- Each object of a listing is that of an item of one of the answers. -/
theorem exists_item_of_list (hbase : Storage.bucketAndPath base = .ok (bucket, basePath))
    (hrun : (server.list base dir).run w = (.ok objects, w')) (hmem : object ∈ objects) :
    ∃ reply ∈ w.remote.replies, ∃ page, Storage.Page.parse? (replyText reply) = some page ∧
      ∃ item ∈ page.items, IsObjectOf (namesStart basePath dir) item object := by
  obtain ⟨w₁, hpages, _⟩ := list_fetches hbase hrun
  obtain ⟨url, hurl⟩ : ∃ url, server.listUrl bucket = .ok url := by
    cases hurl : server.listUrl bucket with
    | ok url => exact ⟨url, rfl⟩
    | error e =>
      rw [fetchPages, fetchPage, Action.run_bind, Action.run_bind, Action.run_lift, hurl] at hpages
      cases hpages
  obtain ⟨_, _, pages, htells, hends⟩ := fetchPages_follows hurl (Nat.lt_succ_self _) hpages
  cases hends with
  | @whole last others answers tells =>
    have hreply {reply : Reply} {objects : List RemoteObject} {next : Option String}
        (htells : Tells (namesStart basePath dir) reply objects next)
        (hmem : reply ∈ pages.map (·.reply) ++ [last]) : reply ∈ w.remote.replies := by
      rcases List.mem_append.1 (answers.subset hmem) with hmem | hmem
      · exact hmem
      · rw [List.mem_singleton.1 hmem] at htells
        exact absurd htells.1 (by decide)
    rcases List.mem_append.1 hmem with hmem | hmem
    · obtain ⟨page, hpage, hmem⟩ := List.mem_flatMap.1 hmem
      have hanswer : page.reply ∈ pages.map (·.reply) ++ [last] :=
        List.mem_append_left _ (List.mem_map.2 ⟨page, hpage, rfl⟩)
      exact ⟨page.reply, hreply (htells page hpage) hanswer, (htells page hpage).exists_item hmem⟩
    · exact ⟨last, hreply tells (by simp), tells.exists_item hmem⟩

/-- A world for trials: no files, and a server that answers with some texts. -/
def answering (bodies : List String) : World Network where
  machine := (ObjectStore.trial .empty []).machine
  remote := ⟨true, bodies.map fun body => ⟨200, Text.encodeUtf8 body.toList⟩, []⟩

/-- A server whose URL has a field of its own. -/
def withOwnField : HttpStorage := ⟨"http://gs.test/v1?alt=json", "http://gs.test"⟩

/-- A listing of two pages. -/
def twoPages : World Network :=
  answering ["[[[\"d/a\",\"1970-01-01T00:00:01Z\",\"3\"]],\"p&q\"]",
    "[[[\"d/\",\"1970-01-01T00:00:01Z\"],[\"d/b c\",\"1970-01-01T00:00:02Z\"]],null]"]

theorem list_follows_two_pages : ∃ w', (withOwnField.list "gs://b" "d").run twoPages =
      (.ok [⟨"a", ObjectStore.atSecond 1, 3⟩, ⟨"b c", ObjectStore.atSecond 2, 0⟩], w') ∧
    ∃ url, withOwnField.listUrl "b" = .ok url ∧
      Follows url "d/".toList true none twoPages.remote.replies
        ["http://gs.test/v1/b/b/o?alt=json&prefix=d%2F",
          "http://gs.test/v1/b/b/o?alt=json&prefix=d%2F&pageToken=p%26q"]
        (.ok [⟨"a", ObjectStore.atSecond 1, 3⟩, ⟨"b c", ObjectStore.atSecond 2, 0⟩]) := by
  have hends : ((withOwnField.list "gs://b" "d").run twoPages).1 =
        .ok [⟨"a", ObjectStore.atSecond 1, 3⟩, ⟨"b c", ObjectStore.atSecond 2, 0⟩] ∧
      ((withOwnField.list "gs://b" "d").run twoPages).2.remote.requests =
        ["http://gs.test/v1/b/b/o?alt=json&prefix=d%2F",
          "http://gs.test/v1/b/b/o?alt=json&prefix=d%2F&pageToken=p%26q"] := by decide +kernel
  have hrun : (withOwnField.list "gs://b" "d").run twoPages =
      (.ok [⟨"a", ObjectStore.atSecond 1, 3⟩, ⟨"b c", ObjectStore.atSecond 2, 0⟩],
        ((withOwnField.list "gs://b" "d").run twoPages).2) := Prod.ext hends.1 rfl
  have hparse : Url.parse withOwnField.apiBase =
      .ok ⟨"http".toList, some ⟨[], none, some (.domain "gs.test".toList), none⟩,
        .segments ["v1".toList], some "alt=json".toList, none⟩ := by decide +kernel
  have hbase : Storage.bucketAndPath "gs://b" = .ok ("b", "") := by decide +kernel
  obtain ⟨url, asked, hurl, hrequests, hfollows, _⟩ := list_follows_pages hbase hparse rfl hrun
  have hstart : namesStart "" "d" = "d/".toList := by decide +kernel
  rw [hends.2] at hrequests
  rw [hstart, ← show _ = asked from hrequests] at hfollows
  exact ⟨_, hrun, url, hurl, hfollows⟩

/-- The first request has a token if the server's URL has one. -/
theorem list_keeps_own_token : ∃ w',
    (list ⟨"http://gs.test/v1?pageToken=x", "http://gs.test"⟩ "gs://b" "d").run
      (answering ["[[],null]"]) = (.ok [], w') ∧
    w'.remote.requests = ["http://gs.test/v1/b/b/o?pageToken=x&prefix=d%2F"] :=
  Action.exists_run (by decide +kernel) (by decide +kernel)

end StepRunner.HttpStorage
