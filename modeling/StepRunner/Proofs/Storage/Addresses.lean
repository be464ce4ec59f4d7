import StepRunner.Proofs.Storage.Joining
import StepRunner.Proofs.Storage.Pages
import StepRunner.Proofs.Sync.Collision
import StepRunner.Proofs.Url.Path

namespace StepRunner

open Url (counts filledSegments encodeSegment openPath IsOneLine)

namespace Storage

theorem filledSegments_trimEndSlashes (text : List Char) :
    filledSegments (trimEndSlashes text) = filledSegments text := by
  induction text using List.reverseRecOn with
  | nil => rfl
  | append_singleton front last ih =>
    by_cases hlast : last = '/'
    · have htrim : trimEndSlashes (front ++ [last]) = trimEndSlashes front := by
        simp [trimEndSlashes, Text.trimEnd, isSlash, hlast]
      rw [htrim, ih, hlast, Url.filledSegments_append, Url.filledSegments_nil, List.append_nil]
    · rw [trimEndSlashes, Text.trimEnd_eq_self]
      intro c hc
      rw [List.getLast?_concat] at hc
      cases hc
      simpa [isSlash] using hlast

theorem filledSegments_trimSlashes (text : List Char) :
    filledSegments (trimSlashes text) = filledSegments text := by
  have hstart : filledSegments (Text.trimStart isSlash text) = filledSegments text := by
    induction text with
    | nil => rfl
    | cons c rest ih =>
      by_cases hc : c = '/'
      · rw [Text.trimStart, List.dropWhile_cons_of_pos (by simp [isSlash, hc]), ← Text.trimStart, ih,
          hc, ← List.nil_append ('/' :: rest), Url.filledSegments_append]
        rfl
      · rw [Text.trimStart, List.dropWhile_cons_of_neg (by simp [isSlash, hc])]
  exact (filledSegments_trimEndSlashes _).trans hstart

/-- No segment is lost where URLs are joined. -/
theorem filledSegments_joinUrl (base rel : String) : filledSegments (joinUrl base rel).toList =
    filledSegments base.toList ++ filledSegments rel.toList := by
  rw [toList_joinUrl, addition, ← filledSegments_trimEndSlashes base.toList,
    ← filledSegments_trimSlashes rel.toList]
  split
  · next hrel => rw [hrel, Url.filledSegments_nil, List.append_nil, List.append_nil]
  · exact Url.filledSegments_append _ _

end Storage

namespace HttpStorage

open Network

variable {server : HttpStorage} {base dir bucket basePath localDir destination path text : String}
  {name : List Char} {names : List (List Char)} {object first second : RemoteObject}
  {listed : List RemoteObject} {above url : Url} {w w' : World Network} {reachable : Bool}

/-- An object is looked for by the segments of the name that it was listed by. -/
theorem filledSegments_namesStart_append (basePath dir relativePath : String) :
    filledSegments (namesStart basePath dir ++ relativePath.toList) =
      filledSegments
        (Storage.joinUrl (Storage.joinUrl basePath dir) relativePath).toList := by
  rw [Storage.filledSegments_joinUrl, ← Storage.filledSegments_trimSlashes (Storage.joinUrl _ _).toList,
    namesStart]
  split
  · next hdir => rw [hdir, Url.filledSegments_nil, List.nil_append, List.nil_append]
  · rw [List.append_assoc, List.singleton_append, Url.filledSegments_append]

/-- The steps of an accepted path are its segments that count. -/
theorem components_eq_of_localPath (h : Sync.localPath localDir object.relativePath = .ok destination) :
    Path.components object.relativePath =
      ((filledSegments object.relativePath.toList).filter counts).map .normal := by
  obtain ⟨_, hnormal, _⟩ := Sync.localPath_eq_ok_iff.1 h
  obtain ⟨_, _, hup⟩ := FileTree.forall_components_iff.1 hnormal
  rw [FileTree.components_eq_map_segments hnormal, Url.filter_counts_filledSegments]
  refine congrArg (List.map _) (List.filter_congr fun segment hmem => ?_)
  have hne : segment ≠ ['.', '.'] := fun heq => hup (heq ▸ hmem)
  rw [Bool.eq_iff_iff, decide_eq_true_eq, Url.counts_iff, ← and_assoc, and_iff_left hne]

/-- The bucket and those parts of a name that count as segments. -/
def parts (bucket : String) (name : List Char) : List (List Char) :=
  (bucket.toList :: Text.pieces '/' name).filter counts

theorem filter_filledSegments (bucket : String) (name : List Char) :
    (bucket.toList :: filledSegments name).filter counts = parts bucket name := by
  rw [parts, List.filter_cons, List.filter_cons, Url.filter_counts_filledSegments]

/-- The parts of a name that an object was listed by end with those of its path. -/
theorem parts_namesStart_append (bucket basePath dir relativePath : String) :
    parts bucket (namesStart basePath dir ++ relativePath.toList) =
      (bucket.toList :: filledSegments (Storage.joinUrl basePath dir).toList).filter counts ++
        (filledSegments relativePath.toList).filter counts := by
  rw [← filter_filledSegments, filledSegments_namesStart_append, Storage.filledSegments_joinUrl,
    ← List.cons_append, List.filter_append]

/-- `IsAddress server bucket name url` says that a URL is that of a server with some segments after
    its path: the bucket and the parts of a name that count, so written that they can be read back. -/
def IsAddress (server : HttpStorage) (bucket : String) (name : List Char) (url : Url) : Prop :=
  ∃ above names segments, Url.parse server.downloadBase = .ok above ∧ above.path = .segments names ∧
    url = above.withNames (openPath names ++ segments) ∧
    segments = (parts bucket name).map (encodeSegment above.scheme) ∧
    segments.map Url.percentDecode = (parts bucket name).map Text.encodeUtf8

/-- `AsksFor isAddress w after` says that the only request between two worlds is for a URL with some
    property, or that there is none, for each such URL is refused. -/
def AsksFor (isAddress : Url → Prop) (w after : World Network) : Prop :=
  (∃ url, isAddress url ∧ refusal? w.remote.reachable url [] = none ∧
    after.remote.requests = w.remote.requests ++ [(sentUrl url []).text]) ∨
  (∀ url, isAddress url → refusal? w.remote.reachable url [] ≠ none) ∧
    after.remote.requests = w.remote.requests

/-- A download asks for the URL of its object. -/
theorem asksFor_download {isAddress : Url → Prop}
    (hbase : Storage.bucketAndPath base = .ok (bucket, basePath))
    (haddress : ∀ url, refusal? w.remote.reachable url [] = none → (isAddress url ↔
      server.objectUrl bucket
        (Storage.joinUrl (Storage.joinUrl basePath dir) object.relativePath) = .ok url))
    (path : String) : AsksFor isAddress w ((server.download base dir object path).run w).2 := by
  rw [download, Action.run_bind, Action.run_lift, hbase]
  dsimp only
  rw [Action.run_bind, Action.run_lift]
  cases hurl : server.objectUrl bucket
      (Storage.joinUrl (Storage.joinUrl basePath dir) object.relativePath) with
  | error e =>
    refine Or.inr ⟨fun url hurl' hsent => ?_, rfl⟩
    rw [haddress url hsent, hurl] at hurl'
    cases hurl'
  | ok url =>
    dsimp only
    rw [Action.run_bind, request_run]
    cases hsent : refusal? w.remote.reachable url [] with
    | some e =>
      refine Or.inr ⟨fun url' hurl' hsent' => ?_, rfl⟩
      rw [haddress url' hsent', hurl] at hurl'
      cases hurl'
      rw [hsent] at hsent'
      cases hsent'
    | none =>
      refine Or.inl ⟨url, (haddress url hsent).2 hurl, hsent, ?_⟩
      dsimp only
      split <;> rfl

/-- Files are not asked for. -/
theorem scheme_ne_file_of_refusal? (h : refusal? reachable url [] = none) :
    url.scheme ≠ "file".toList := by
  intro hfile
  obtain ⟨_, hsend⟩ := isSendable_of_refusal? h
  have hscheme : (requestUrl url []).scheme = "file".toList := (sentUrl_eq url []).1.trans hfile
  rw [isSendable, hscheme] at hsend
  cases hsend

/-- What is asked for has the path of the URL. -/
theorem sentUrl_withNames (url : Url) (names : List (List Char)) :
    sentUrl (url.withNames names) [] = (sentUrl url []).withNames names := by
  have htext : userIsText (url.withNames names) = userIsText url := rfl
  unfold sentUrl requestUrl
  rw [if_pos rfl, if_pos rfl, htext]
  split <;> rfl

/-- Two names are asked for by the same URL if the same parts of them count. -/
theorem IsAddress.text_eq_iff {name' : List Char} {url' : Url}
    (h : IsAddress server bucket name url) (h' : IsAddress server bucket name' url')
    (hsent : refusal? reachable url [] = none) :
    (sentUrl url []).text = (sentUrl url' []).text ↔ parts bucket name = parts bucket name' := by
  obtain ⟨above, names, _, hparse, hpath, rfl, rfl, _⟩ := h
  obtain ⟨above', names', _, hparse', hpath', rfl, rfl, _⟩ := h'
  obtain rfl : above = above' := Except.ok.inj (hparse.symm.trans hparse')
  obtain rfl : names = names' := Url.UrlPath.segments.inj (hpath.symm.trans hpath')
  have hauthority : (sentUrl above []).authority.isSome := by
    obtain ⟨hhost, _⟩ := isSendable_of_refusal? hsent
    change above.host?.isSome at hhost
    obtain ⟨_, _, hsame, _⟩ := sentUrl_eq above []
    rw [← hsame, Option.isSome_iff_exists] at hhost
    obtain ⟨_, hhost⟩ := hhost
    obtain ⟨_, hauthority, _⟩ := Option.bind_eq_some_iff.1 hhost
    rw [hauthority, Option.isSome_some]
  have hslash (parts : List (List Char)) :
      ∀ segment ∈ parts.map (encodeSegment above.scheme), '/' ∉ segment := by
    rw [List.forall_mem_map]
    exact fun part _ => Url.slash_not_mem_encodeSegment _ part
  rw [sentUrl_withNames, sentUrl_withNames, Url.text_eq_iff hauthority (hslash _) (hslash _),
    (Url.encodeSegment_injective _).list_map.eq_iff]

theorem objectUrl_eq (hparse : Url.parse server.downloadBase = .ok above) (bucket name : String) :
    server.objectUrl bucket name =
      match above.extend? (bucket.toList :: filledSegments name.toList) with
      | some url => .ok url
      | none => .error (.invalidUrl server.downloadBase) := by
  unfold objectUrl withSegments
  rw [hparse]
  rfl

/-- An object has a URL if the one of the server has a path of segments. -/
theorem exists_of_objectUrl {name : String} (h : server.objectUrl bucket name = .ok url) :
    ∃ above names, Url.parse server.downloadBase = .ok above ∧ above.path = .segments names ∧
      url.scheme = above.scheme := by
  cases hparse : Url.parse server.downloadBase with
  | error e =>
    unfold objectUrl withSegments at h
    rw [hparse] at h
    cases h
  | ok above =>
    rw [objectUrl_eq hparse, Url.extend?] at h
    cases hpath : above.path with
    | opaquePath text => rw [hpath] at h; cases h
    | segments names => rw [hpath] at h; cases h; exact ⟨above, names, rfl, hpath, rfl⟩

/-- The URL of an object, if a part of its name counts. -/
theorem objectUrl_eq_ok {name : String} (hparse : Url.parse server.downloadBase = .ok above)
    (hpath : above.path = .segments names) (hfile : above.scheme ≠ "file".toList)
    (hbucket : bucket.toList ≠ [] ∧ IsOneLine bucket.toList)
    (hname : ∀ segment ∈ filledSegments name.toList, segment ≠ [] ∧ IsOneLine segment)
    (hsome : parts bucket name.toList ≠ []) : server.objectUrl bucket name =
      .ok (above.withNames (openPath names ++
        (parts bucket name.toList).map (encodeSegment above.scheme))) := by
  rw [← filter_filledSegments] at hsome ⊢
  have hextend := Url.extend?_eq hpath hfile (List.forall_mem_cons.2 ⟨hbucket, hname⟩) hsome
  rw [objectUrl_eq hparse, hextend]

/-- A part of the name counts if a sync accepts the object. -/
theorem parts_ne_nil (bucket basePath dir : String)
    (hlocal : Sync.localPath localDir object.relativePath = .ok destination) :
    parts bucket (namesStart basePath dir ++ object.relativePath.toList) ≠ [] := by
  have hsteps := components_eq_of_localPath hlocal
  obtain ⟨hne, hnormal, _⟩ := Sync.localPath_eq_ok_iff.1 hlocal
  obtain ⟨_, _, hnames, hcomponents⟩ := FileTree.components_eq_map hnormal
  rw [parts_namesStart_append]
  intro hnil
  rw [(List.append_eq_nil_iff.1 hnil).2, hcomponents, List.map_nil, List.map_eq_nil_iff] at hsteps
  exact hnames hne hsteps

/-- An object that a sync accepts has the URL that its name in the listing tells of, if the
    characters that URLs leave out do not occur. -/
theorem isAddress_iff (hbase : Storage.bucketAndPath base = .ok (bucket, basePath))
    (hlocal : Sync.localPath localDir object.relativePath = .ok destination)
    (hbucket : IsOneLine bucket.toList)
    (hname : IsOneLine (namesStart basePath dir ++ object.relativePath.toList))
    (hsent : refusal? reachable url [] = none) :
    IsAddress server bucket (namesStart basePath dir ++ object.relativePath.toList) url ↔
      server.objectUrl bucket
        (Storage.joinUrl (Storage.joinUrl basePath dir) object.relativePath) = .ok url := by
  have hparts : parts bucket (Storage.joinUrl (Storage.joinUrl basePath dir)
      object.relativePath).toList =
      parts bucket (namesStart basePath dir ++ object.relativePath.toList) := by
    rw [← filter_filledSegments, ← filter_filledSegments, filledSegments_namesStart_append]
  obtain ⟨_, _, hne, _⟩ := Storage.bucketAndPath_eq_ok_iff.1 hbase
  have hsegments : ∀ segment ∈ filledSegments (Storage.joinUrl (Storage.joinUrl basePath dir)
      object.relativePath).toList, segment ≠ [] ∧ IsOneLine segment := by
    rw [← filledSegments_namesStart_append]
    exact fun segment hmem => Url.isOneLine_of_mem_filledSegments hname hmem
  have hsome := parts_ne_nil bucket basePath dir hlocal
  rw [IsAddress]
  rw [← hparts] at hsome ⊢
  have hfile := scheme_ne_file_of_refusal? hsent
  constructor
  · rintro ⟨above, names, _, hparse, hpath, rfl, rfl, _⟩
    exact objectUrl_eq_ok hparse hpath hfile ⟨hne, hbucket⟩ hsegments hsome
  · intro hurl
    obtain ⟨above, names, hparse, hpath, hscheme⟩ := exists_of_objectUrl hurl
    rw [hscheme] at hfile
    rw [objectUrl_eq_ok hparse hpath hfile ⟨hne, hbucket⟩ hsegments hsome] at hurl
    cases hurl
    refine ⟨above, names, _, hparse, hpath, rfl, rfl, ?_⟩
    rw [List.map_map]
    exact List.map_congr_left fun part _ => Url.percentDecode_encodeSegment _ part

/-- Whether a sync accepts an object and URLs leave out no character of its name in a listing. -/
def IsAccepted (localDir : String) (start : List Char) (object : RemoteObject) : Prop :=
  (∃ destination, Sync.localPath localDir object.relativePath = .ok destination) ∧
    IsOneLine (start ++ object.relativePath.toList)

/-- Two objects have the same parts if they collide. -/
theorem parts_eq_iff {start : List Char} (hfirst : IsAccepted localDir start first)
    (hsecond : IsAccepted localDir start second) :
    parts bucket (namesStart basePath dir ++ first.relativePath.toList) =
        parts bucket (namesStart basePath dir ++ second.relativePath.toList) ↔
      Sync.Collides first second := by
  obtain ⟨⟨_, hfirst⟩, _⟩ := hfirst
  obtain ⟨⟨_, hsecond⟩, _⟩ := hsecond
  have hnormal : Function.Injective Component.normal := fun _ _ => Component.normal.inj
  rw [parts_namesStart_append, parts_namesStart_append, List.append_cancel_left_eq, Sync.Collides,
    components_eq_of_localPath hfirst, components_eq_of_localPath hsecond, hnormal.list_map.eq_iff]

/-- What a download asks for if it asks for something. -/
theorem AsksFor.exists_url {isAddress : Url → Prop} (h : AsksFor isAddress w w')
    (hasked : w'.remote.requests = w.remote.requests ++ [text]) :
    ∃ url, isAddress url ∧ refusal? w.remote.reachable url [] = none ∧
      text = (sentUrl url []).text := by
  rcases h with ⟨url, haddress, hsent, hrequests⟩ | ⟨_, hrequests⟩
  · rw [hasked, List.append_cancel_left_eq] at hrequests
    exact ⟨url, haddress, hsent, List.singleton_inj.1 hrequests⟩
  · rw [hasked] at hrequests
    simp at hrequests

/-- Each object of a listing that a sync accepts is asked for by the bucket and those parts of the
    name in the listing that are not empty and no dots. They stand after the path of the server's
    URL, so written that they can be read back; the query of that URL stays, and a fragment goes.
    Two objects are asked for by the same URL if they collide, and only then. -/
theorem download_asks_for_listed (hbase : Storage.bucketAndPath base = .ok (bucket, basePath))
    (hbucket : IsOneLine bucket.toList)
    (hlist : (server.list base dir).run w = (.ok listed, w')) :
    (∀ object ∈ listed, IsAccepted localDir (namesStart basePath dir) object →
      ∃ reply ∈ w.remote.replies, ∃ page, Storage.Page.parse? (replyText reply) = some page ∧
        ∃ item ∈ page.items, IsObjectOf (namesStart basePath dir) item object ∧
          ∀ path w₁, AsksFor (IsAddress server bucket item.name.toList) w₁
            ((server.download base dir object path).run w₁).2) ∧
    (∀ first ∈ listed, ∀ second ∈ listed, IsAccepted localDir (namesStart basePath dir) first →
      IsAccepted localDir (namesStart basePath dir) second → ∀ path path' w₁ w₂ text text',
        ((server.download base dir first path).run w₁).2.remote.requests =
          w₁.remote.requests ++ [text] →
        ((server.download base dir second path').run w₂).2.remote.requests =
          w₂.remote.requests ++ [text'] →
        (text = text' ↔ Sync.Collides first second)) ∧
    ∀ name url, IsAddress server bucket name url → (sentUrl url []).path = url.path ∧
      (sentUrl url []).host? = url.host? ∧ (sentUrl url []).fragment = none ∧
      ∃ above, Url.parse server.downloadBase = .ok above ∧ (sentUrl url []).query = above.query := by
  have hasks {object : RemoteObject}
      (haccepted : IsAccepted localDir (namesStart basePath dir) object) (path : String)
      (w₁ : World Network) :
      AsksFor (IsAddress server bucket (namesStart basePath dir ++ object.relativePath.toList)) w₁
        ((server.download base dir object path).run w₁).2 := by
    obtain ⟨⟨_, hlocal⟩, hname⟩ := haccepted
    exact asksFor_download hbase
      (fun _ hsent => isAddress_iff hbase hlocal hbucket hname hsent) path
  refine ⟨fun object hmem haccepted => ?_, ?_, ?_⟩
  · obtain ⟨reply, hreply, page, hpage, item, hitem, hobject⟩ := exists_item_of_list hbase hlist hmem
    exact ⟨reply, hreply, page, hpage, item, hitem, hobject, hobject.name ▸ hasks haccepted⟩
  · intro first _ second _ hfirst hsecond path path' w₁ w₂ text text' hasked hasked'
    obtain ⟨url, haddress, hsent, rfl⟩ := (hasks hfirst path w₁).exists_url hasked
    obtain ⟨url', haddress', _, rfl⟩ := (hasks hsecond path' w₂).exists_url hasked'
    rw [haddress.text_eq_iff haddress' hsent, parts_eq_iff hfirst hsecond]
  · intro name url haddress
    obtain ⟨above, _, _, hparse, _, rfl, _⟩ := haddress
    obtain ⟨_, hpath, hhost, hfragment⟩ := sentUrl_eq (above.withNames _) []
    exact ⟨hpath, hhost, hfragment, above, hparse, query_sentUrl_nil _⟩

/-- A server for trials. -/
def trialServer : HttpStorage := ⟨"http://gs.test", "http://gs.test"⟩

/-- A listing of two objects whose names differ by a slash. -/
def sameParts : World Network :=
  answering ["[[[\"d/a//b\",\"1970-01-01T00:00:01Z\"],[\"d/a/b\",\"1970-01-01T00:00:01Z\"]],null]",
    "one", "two"]

theorem download_asks_for_listed_same_parts : ∃ w', (trialServer.list "gs://b" "d").run sameParts =
      (.ok [⟨"a//b", ObjectStore.atSecond 1, 0⟩, ⟨"a/b", ObjectStore.atSecond 1, 0⟩], w') ∧
    AsksFor (IsAddress trialServer "b" "d/a//b".toList) w'
      ((trialServer.download "gs://b" "d" ⟨"a//b", ObjectStore.atSecond 1, 0⟩ "x").run w').2 := by
  obtain ⟨w', hlist, _⟩ : ∃ w', (trialServer.list "gs://b" "d").run sameParts =
      (.ok [⟨"a//b", ObjectStore.atSecond 1, 0⟩, ⟨"a/b", ObjectStore.atSecond 1, 0⟩], w') ∧ True :=
    Action.exists_run (by decide +kernel) trivial
  have hbase : Storage.bucketAndPath "gs://b" = .ok ("b", "") := by decide +kernel
  have hstart : namesStart "" "d" = "d/".toList := by decide +kernel
  obtain ⟨hasks, _, _⟩ := @download_asks_for_listed trialServer "gs://b" "d" "b" "" "x" _ _ _ hbase
    (by decide +kernel) hlist
  have haccepted : IsAccepted "x" "d/".toList ⟨"a//b", ObjectStore.atSecond 1, 0⟩ :=
    ⟨⟨"x/a//b", by decide +kernel⟩, by decide +kernel⟩
  obtain ⟨_, _, _, _, item, _, hobject, hasks⟩ :=
    hasks _ List.mem_cons_self (hstart ▸ haccepted)
  have hname : item.name.toList = "d/a//b".toList := by
    rw [hobject.name, hstart]
    rfl
  exact ⟨w', hlist, hname ▸ hasks "x" w'⟩

/-- Two objects of a listing are asked for by the same URL, so that one of them gets the contents of
    the other. -/
theorem download_mixes_up_objects : ∃ w', (trialServer.list "gs://b" "d").run sameParts =
      (.ok [⟨"a//b", ObjectStore.atSecond 1, 0⟩, ⟨"a/b", ObjectStore.atSecond 1, 0⟩], w') ∧
    Sync.localPath "x" "a//b" = .ok "x/a//b" ∧ Sync.localPath "x" "a/b" = .ok "x/a/b" ∧
    ((trialServer.download "gs://b" "d" ⟨"a//b", ObjectStore.atSecond 1, 0⟩ "x").run
      w').2.remote.requests = w'.remote.requests ++ ["http://gs.test/b/d/a/b"] ∧
    ((trialServer.download "gs://b" "d" ⟨"a/b", ObjectStore.atSecond 1, 0⟩ "x").run
      w').2.remote.requests = w'.remote.requests ++ ["http://gs.test/b/d/a/b"] :=
  Action.exists_run (by decide +kernel) (by decide +kernel)

end HttpStorage

end StepRunner
