import WorkflowCanvas.Proofs.Service.Address

/-!
# Requests stay at the service

Whatever a workflow is called, the URLs that a client builds are those of its base up to the path,
and the path only grows: behind the root that all requests share (`Url.requestRoot`) come names of
which none leads to another directory or ends the path (`Url.StaysBelow`).  Two bases that differ in
a slash at the end of the path have the same URLs exactly if the path without the slash does not end
in another one or is the root (`requests_stayBelow`).
-/

namespace WorkflowCanvas

namespace Url

/-! ## Names without a slash -/

lemma slash_not_mem_of_mem_split {special : Bool} {text : List Char} :
    ∀ piece ∈ Text.split (isSlash special) text, '/' ∉ piece := by
  induction text with
  | nil =>
    intro piece hpiece
    rw [Text.split, List.mem_singleton] at hpiece
    rw [hpiece]
    exact List.not_mem_nil
  | cons c text ih =>
    intro piece hpiece
    rw [Text.split] at hpiece
    split at hpiece
    · obtain rfl | hlater := List.mem_cons.1 hpiece
      · exact List.not_mem_nil
      · exact ih piece hlater
    · rename_i hslash
      have hne : '/' ≠ c := by
        rintro rfl
        exact hslash rfl
      split at hpiece
      · rw [List.mem_singleton.1 hpiece]
        exact List.not_mem_cons_of_ne_of_not_mem hne List.not_mem_nil
      · rename_i first others hsplit
        rw [hsplit] at ih
        obtain rfl | hlater := List.mem_cons.1 hpiece
        · exact List.not_mem_cons_of_ne_of_not_mem hne (ih first List.mem_cons_self)
        · exact ih piece (List.mem_cons_of_mem first hlater)

lemma mem_of_mem_above {names : List (List Char)} {name : List Char} (h : name ∈ above names) :
    name ∈ names := by
  unfold above at h
  split at h
  · split at h
    · exact h
    · exact List.dropLast_subset names h
  · cases h

lemma mem_follow {names : List (List Char)} {name followed : List Char} {final : Bool}
    (h : followed ∈ follow names name final) :
    followed ∈ names ∨ followed = [] ∨ followed = name := by
  have hending : ∀ {kept : List (List Char)}, followed ∈ kept ++ (if final then [[]] else []) →
      followed ∈ kept ∨ followed = [] := by
    intro kept hmem
    obtain hkept | hend := List.mem_append.1 hmem
    · exact .inl hkept
    · split at hend
      · exact .inr (List.mem_singleton.1 hend)
      · cases hend
  unfold follow at h
  dsimp only at h
  by_cases habove : isDoubleDot name = true
  · rw [if_pos habove] at h
    exact (hending h).elim (fun hkept => .inl (mem_of_mem_above hkept)) fun hempty =>
      .inr (.inl hempty)
  rw [if_neg habove] at h
  by_cases hhere : isDot name = true
  · rw [if_pos hhere] at h
    exact (hending h).elim .inl fun hempty => .inr (.inl hempty)
  · rw [if_neg hhere] at h
    exact (List.mem_append.1 h).elim .inl fun hname => .inr (.inr (List.mem_singleton.1 hname))

lemma slash_not_mem_follow {names : List (List Char)} {piece : List Char} {final : Bool}
    (hnames : ∀ name ∈ names, '/' ∉ name) (hpiece : '/' ∉ piece) :
    ∀ name ∈ follow names (percentEncode pathReserved piece) final, '/' ∉ name := by
  intro name hname
  obtain hkept | rfl | rfl := mem_follow hname
  · exact hnames name hkept
  · exact List.not_mem_nil
  · exact slash_not_mem_percentEncode_of_not_mem hpiece

lemma slash_not_mem_followAll {pieces : List (List Char)}
    (hpieces : ∀ piece ∈ pieces, '/' ∉ piece) :
    ∀ {names : List (List Char)}, (∀ name ∈ names, '/' ∉ name) →
      ∀ name ∈ followAll names pieces, '/' ∉ name := by
  induction pieces with
  | nil => exact id
  | cons piece pieces ih =>
    intro names hnames
    obtain ⟨hpiece, hlater⟩ := List.forall_mem_cons.1 hpieces
    cases pieces with
    | nil => exact slash_not_mem_follow hnames hpiece
    | cons second pieces => exact ih hlater (slash_not_mem_follow hnames hpiece)

/-! ## The parts of a web URL -/

lemma exists_of_bind_eq_ok {ε α β : Type} {x : Except ε α} {f : α → Except ε β} {r : β}
    (h : x >>= f = .ok r) : ∃ a, x = .ok a ∧ f a = .ok r := by
  cases x with
  | error e => cases h
  | ok a => exact ⟨a, rfl, h⟩

lemma scheme_of_readFile [Idna] {s : Scheme} {text : List Char} {url : Url}
    (h : readFile s text = .ok url) : url.scheme = s := by
  unfold readFile at h
  split at h
  · split at h
    · obtain ⟨_, -, h⟩ := exists_of_bind_eq_ok h
      obtain rfl := Except.ok.inj h
      rfl
    · obtain rfl := Except.ok.inj h
      rfl
  · obtain rfl := Except.ok.inj h
    rfl

lemma scheme_of_readBehind [Idna] {s : Scheme} {text : List Char} {url : Url}
    (h : readBehind s text = .ok url) : url.scheme = s := by
  unfold readBehind at h
  split at h
  · exact scheme_of_readFile h
  · split at h
    · obtain ⟨_, -, h⟩ := exists_of_bind_eq_ok h
      obtain rfl := Except.ok.inj h
      rfl
    · split at h
      · obtain ⟨_, -, h⟩ := exists_of_bind_eq_ok h
        obtain rfl := Except.ok.inj h
        rfl
      · obtain rfl := Except.ok.inj h
        rfl
      · obtain rfl := Except.ok.inj h
        rfl

/-- A web URL has an authority, and the names of its path hold no slash. -/
lemma exists_parts_of_isWeb [Idna] {text : String} {url : Url} (h : ofText text = .ok url)
    (web : url.scheme.isWeb = true) :
    ∃ authority names, url.authority = some authority ∧ url.path = .names names ∧
      ∀ name ∈ names, '/' ∉ name := by
  unfold ofText at h
  split at h
  · rename_i s rest _
    obtain rfl := scheme_of_readBehind h
    have hfile : url.scheme.isFile = false := by
      obtain hs | hs := Scheme.cases_of_isWeb web <;> rw [hs] <;> rfl
    unfold readBehind at h
    simp only [hfile, Scheme.isSpecial_of_isWeb web, if_true] at h
    obtain ⟨⟨authority, behind⟩, -, h⟩ := exists_of_bind_eq_ok h
    have hurl := Except.ok.inj h
    refine ⟨authority, readNames url.scheme (cut endsPath behind).1, ?_, ?_, ?_⟩
    · rw [← hurl]
      rfl
    · rw [← hurl]
      simp only [complete, Scheme.isSpecial_of_isWeb web, Bool.true_or, if_true]
    · unfold readNames
      rw [settle_of_isWeb web]
      exact slash_not_mem_followAll slash_not_mem_of_mem_split (fun _ h => nomatch h)
  · cases h

/-! ## Paths as texts -/

lemma split_append {stop : Char → Bool} {piece rest : List Char} {pieces : List (List Char)}
    (hpiece : ∀ c ∈ piece, stop c = false) (hrest : Text.split stop rest = [] :: pieces) :
    Text.split stop (piece ++ rest) = piece :: pieces := by
  induction piece with
  | nil => exact hrest
  | cons c piece ih =>
    obtain ⟨hc, hlater⟩ := List.forall_mem_cons.1 hpiece
    rw [List.cons_append, Text.split, hc, ih hlater]
    rfl

/-- The names of a path are the pieces of its text behind the first slash. -/
lemma split_chars {names : List (List Char)} (h : ∀ name ∈ names, '/' ∉ name) :
    Text.split (· == '/') (Path.names names).chars = [] :: names := by
  induction names with
  | nil => rfl
  | cons name names ih =>
    obtain ⟨hname, hlater⟩ := List.forall_mem_cons.1 h
    have hplain : ∀ c ∈ name, (c == '/') = false := by
      intro c hc
      exact beq_eq_false_iff_ne.2 fun heq => hname (heq ▸ hc)
    have hsplit := split_append hplain (ih hlater)
    have htext : (Path.names (name :: names)).chars = '/' :: (name ++ (Path.names names).chars) :=
      rfl
    rw [htext, Text.split, hsplit]
    rfl

lemma chars_names_inj {names names' : List (List Char)} (h : ∀ name ∈ names, '/' ∉ name)
    (h' : ∀ name ∈ names', '/' ∉ name) :
    (Path.names names).chars = (Path.names names').chars ↔ names = names' := by
  constructor
  · intro heq
    have hsplit := split_chars h
    rw [heq, split_chars h'] at hsplit
    exact (List.cons.inj hsplit).2.symm
  · rintro rfl
    rfl

lemma chars_names_append (names added : List (List Char)) :
    (Path.names (names ++ added)).chars = (Path.names names).chars ++ (Path.names added).chars :=
  List.flatMap_append

/-- The text of a path ends in a slash if its last name is empty. -/
lemma getLast?_chars_names {names : List (List Char)} (h : ∀ name ∈ names, '/' ∉ name) :
    (Path.names names).chars.getLast? = some '/' ↔ names.getLast? = some [] := by
  obtain rfl | ⟨init, last, rfl⟩ := names.eq_nil_or_concat'
  · simp [Path.chars]
  · have hlast : '/' ∉ last := h last (by simp)
    have htext : (Path.names [last]).chars = '/' :: last := by simp [Path.chars]
    rw [List.getLast?_concat, chars_names_append, htext]
    obtain rfl | ⟨before, c, rfl⟩ := last.eq_nil_or_concat'
    · simp
    · have hc : c ≠ '/' := by
        rintro rfl
        simp at hlast
      have hassoc : (Path.names init).chars ++ '/' :: (before ++ [c]) =
          ((Path.names init).chars ++ '/' :: before) ++ [c] := by simp
      rw [hassoc, List.getLast?_concat]
      simp [hc]

/-! ## Where requests go -/

/-- A name that leads to no other directory and in which no other part of a URL begins. -/
structure IsPlainName (name : List Char) : Prop where
  not_dot : isDot name = false
  not_dots : isDoubleDot name = false
  not_mem : ∀ c ∈ ['/', '\\', '?', '#'], c ∉ name

/-- A URL that is another one but for its path, which goes on behind the root. -/
structure StaysBelow (base : Url) (root : List (List Char)) (url : Url) : Prop where
  scheme : url.scheme = base.scheme
  authority : url.authority = base.authority
  query : url.query = base.query
  fragment : url.fragment = base.fragment
  /-- At least one name is added to the path, and none that leads out of it. -/
  path : ∃ added, added ≠ [] ∧ url.path = .names (root ++ added) ∧ ∀ name ∈ added, IsPlainName name
  /-- The text is that of the base but for what stands behind the slash after the root. -/
  chars : ∃ more, url.chars =
    base.originChars ++ ((Path.names root).chars ++ '/' :: more) ++ base.suffixChars

/-- One URL is the other with a slash at the end of its path. -/
structure AddsSlash (u v : Url) : Prop where
  others : v = { u with path := v.path }
  path : v.path.chars = u.path.chars ++ ['/']

lemma isPlainName_endpoint (endpoint : Endpoint) : IsPlainName endpoint.name.toList := by
  cases endpoint
  all_goals
    constructor
    · rfl
    · rfl
    · simp [Endpoint.name]

lemma isPlainName_nil : IsPlainName [] := by
  constructor
  · rfl
  · rfl
  · simp

lemma isPlainName_percentEncode {text : List Char} (hdot : text ≠ ['.'])
    (hdots : text ≠ ['.', '.']) :
    IsPlainName (percentEncode (segmentReserved true) text) := by
  have hseparators : ∀ c ∈ ['/', '\\', '?', '#'],
      segmentReserved true c = true ∧ c ≠ '%' ∧ ∀ n < 16, hexDigit n ≠ c := by
    simp only [List.forall_mem_cons, List.not_mem_nil, false_imp_iff, forall_const, and_true]
    decide
  constructor
  · rw [← Bool.not_eq_true, isDot_percentEncode]
    exact hdot
  · rw [← Bool.not_eq_true, isDoubleDot_percentEncode]
    exact hdots
  · intro c hc
    obtain ⟨hreserved, hsign, hdigit⟩ := hseparators c hc
    exact not_mem_percentEncode hreserved hsign hdigit text

lemma isPlainName_requestEnding (endpoint : Endpoint) (workflow : List Char) :
    ∀ name ∈ requestEnding endpoint.name.toList workflow, IsPlainName name := by
  have hendpoint := isPlainName_endpoint endpoint
  unfold requestEnding
  dsimp only
  split
  · exact List.forall_mem_singleton.2 hendpoint
  split
  · exact List.forall_mem_singleton.2 isPlainName_nil
  rename_i hdots
  split
  · exact List.forall_mem_cons.2 ⟨hendpoint, List.forall_mem_singleton.2 isPlainName_nil⟩
  · rename_i hdot
    exact List.forall_mem_cons.2
      ⟨hendpoint, List.forall_mem_singleton.2 (isPlainName_percentEncode hdot hdots)⟩

/-- Behind an authority no path needs a guard. -/
lemma originChars_of_authority {u : Url} {authority : Authority} (h : u.authority = some authority)
    (path : Path) : ({ u with path } : Url).originChars = u.originChars := by
  have hguard : ∀ v : Url, v.authority = some authority → v.pathGuard = [] := by
    intro v hv
    simp [pathGuard, hv]
  simp only [originChars, hguard u h, hguard { u with path } h]

lemma staysBelow_append {base : Url} {authority : Authority} (h : base.authority = some authority)
    (root : List (List Char)) {added : List (List Char)} (hne : added ≠ [])
    (hplain : ∀ name ∈ added, IsPlainName name) :
    base.StaysBelow root { base with path := .names (root ++ added) } where
  scheme := rfl
  authority := rfl
  query := rfl
  fragment := rfl
  path := ⟨added, hne, rfl, hplain⟩
  chars := by
    obtain ⟨name, others, rfl⟩ := List.exists_cons_of_ne_nil hne
    refine ⟨name ++ (Path.names others).chars, ?_⟩
    rw [chars, originChars_of_authority h, chars_names_append]
    rfl

lemma requestEnding_ne_nil (endpoint workflow : List Char) :
    requestEnding endpoint workflow ≠ [] := by
  simp only [requestEnding]
  split_ifs <;> simp

lemma withoutEmptyEnd_concat_nil (names : List (List Char)) :
    withoutEmptyEnd (names ++ [[]]) = names := by
  simp [withoutEmptyEnd]

/-- A slash at the end of a path moves the root unless it is the first one there or the path is the
root alone. -/
lemma requestRoot_concat_nil_iff (names : List (List Char)) :
    requestRoot (names ++ [[]]) = requestRoot names ↔ names = [[]] ∨ names.getLast? ≠ some [] := by
  rw [requestRoot, withoutEmptyEnd_concat_nil]
  by_cases hend : names.getLast? = some []
  · obtain ⟨init, rfl⟩ := List.getLast?_eq_some_iff.1 hend
    rw [requestRoot, withoutEmptyEnd_concat_nil]
    by_cases halone : init = []
    · simp [halone]
    · have hlonger : (if init = [[]] then [] else init).length < (init ++ [[]]).length := by
        split_ifs <;> simp
      have hne : init ++ [[]] ≠ if init = [[]] then [] else init := by
        intro heq
        rw [← heq] at hlonger
        exact Nat.lt_irrefl _ hlonger
      simp [halone, hne]
  · have hne : names ≠ [[]] := by
      rintro rfl
      exact hend rfl
    simp [requestRoot, withoutEmptyEnd, hend, hne]

end Url

namespace Http.Client

open Url

/-- What the path of a call ends with behind the root of the base. -/
def pathEnding (call : Call) : List (List Char) :=
  match call.workflow? with
  | some workflow => requestEnding call.endpoint.name.toList workflow.toList
  | none => [call.endpoint.name.toList]

lemma pathEnding_ne_nil (call : Call) : pathEnding call ≠ [] := by
  unfold pathEnding
  split
  · exact requestEnding_ne_nil _ _
  · exact List.cons_ne_nil _ _

lemma isPlainName_pathEnding (call : Call) : ∀ name ∈ pathEnding call, IsPlainName name := by
  unfold pathEnding
  split
  · exact isPlainName_requestEnding _ _
  · exact List.forall_mem_singleton.2 (isPlainName_endpoint _)

variable {client : Client} {names : List (List Char)}

lemma parts_of_ofUrl [Idna] {text : String} (accepted : ofUrl text = .ok client)
    (web : client.base.scheme.isWeb = true) (rooted : client.base.path = .names names) :
    ∃ authority, client.base.authority = some authority ∧ ∀ name ∈ names, '/' ∉ name := by
  obtain ⟨hread, -⟩ := base_of_ofUrl accepted
  obtain ⟨authority, names', hauthority, hpath, hslash⟩ := exists_parts_of_isWeb hread web
  obtain rfl := Path.names.inj (rooted.symm.trans hpath)
  exact ⟨authority, hauthority, hslash⟩

/-- The URL of any call. -/
lemma url_call (web : client.base.scheme.isWeb = true) (rooted : client.base.path = .names names)
    (call : Call) :
    client.url call = .ok { client.base with
      path := .names (requestRoot names ++ pathEnding call) } := by
  cases hworkflow : call.workflow? with
  | some workflow => simp only [url_eq web rooted hworkflow, pathEnding, hworkflow]
  | none =>
    have hnames : Client.names call = [call.endpoint.name] := by
      cases call <;> first | rfl | cases hworkflow
    have happend : client.base.append? ([call.endpoint.name].map String.toList) =
        some { client.base with
          path := .names (requestRoot names ++ [call.endpoint.name.toList]) } := by
      unfold append?
      rw [rooted]
      simp only [List.map_cons, List.map_nil, List.foldl_cons, List.foldl_nil,
        appendName_endpoint web, ← requestRoot_eq]
    simp only [url, hnames, happend, pathEnding, hworkflow]

lemma exists_url (rooted : client.base.path = .names names) (call : Call) :
    ∃ url, client.url call = .ok url := by
  unfold url append?
  rw [rooted]
  exact ⟨_, rfl⟩

/-- A client of any URL can build the URL of every call.  On the web it is that of the base but for
the path, which goes on behind the root with plain names; and a base with one more slash at the end
of its path has the same URLs exactly if the path without it ends in no slash or is the root. -/
theorem requests_stayBelow [Idna] {text : String} {client : Client}
    (accepted : ofUrl text = .ok client) :
    (∀ call, ∃ url, client.url call = .ok url) ∧
      (client.base.scheme.isWeb = true → ∃ names, client.base.path = .names names ∧
        (∀ call url, client.url call = .ok url →
          client.base.StaysBelow (requestRoot names) url) ∧
        ∀ text' client', ofUrl text' = .ok client' → client.base.AddsSlash client'.base →
          ∀ call, client'.url call = client.url call ↔
            client.base.path.chars = ['/'] ∨ client.base.path.chars.getLast? ≠ some '/') := by
  obtain ⟨names, rooted⟩ := path_of_ofUrl accepted
  refine ⟨exists_url rooted, fun web => ⟨names, rooted, ?_, ?_⟩⟩
  · intro call url hurl
    obtain ⟨authority, hauthority, -⟩ := parts_of_ofUrl accepted web rooted
    rw [url_call web rooted] at hurl
    obtain rfl := Except.ok.inj hurl
    exact staysBelow_append hauthority _ (pathEnding_ne_nil call) (isPlainName_pathEnding call)
  · intro text' client' accepted' adds call
    have web' : client'.base.scheme.isWeb = true := by
      rw [adds.others]
      exact web
    obtain ⟨names', rooted'⟩ := path_of_ofUrl accepted'
    obtain ⟨-, -, hslash⟩ := parts_of_ofUrl accepted web rooted
    obtain ⟨-, -, hslash'⟩ := parts_of_ofUrl accepted' web' rooted'
    have hnames' : names' = names ++ [[]] := by
      have hpath := adds.path
      rw [rooted, rooted'] at hpath
      have hlonger : ∀ name ∈ names ++ [[]], '/' ∉ name :=
        List.forall_mem_append.2 ⟨hslash, List.forall_mem_singleton.2 List.not_mem_nil⟩
      refine (chars_names_inj hslash' hlonger).1 ?_
      rw [hpath, chars_names_append]
      rfl
    have hroot : client.base.path.chars = ['/'] ↔ names = [[]] := by
      rw [rooted]
      exact chars_names_inj hslash (List.forall_mem_singleton.2 List.not_mem_nil)
    have hend : client.base.path.chars.getLast? = some '/' ↔ names.getLast? = some [] := by
      rw [rooted]
      exact getLast?_chars_names hslash
    rw [url_call web rooted, url_call web' rooted', adds.others, hnames', hroot, ne_eq, hend,
      ← requestRoot_concat_nil_iff]
    constructor
    · intro heq
      have hpath := Path.names.inj (congrArg Url.path (Except.ok.inj heq))
      exact List.append_cancel_right hpath
    · intro heq
      rw [heq]

/-- A base with a user, a port and a query, with and without a slash at its end, and workflows whose
names try to lead out of it. -/
theorem requests_stayBelow_samples :
    let client (names : List (List Char)) : Client :=
      ⟨⟨⟨"http".toList⟩, some ⟨"u".toList, [], .domain "svc.test".toList, some 8080⟩,
        .names names, some "q".toList, none⟩⟩
    let base := client ["a".toList]
    let base' := client ["a".toList, []]
    ofUrl "http://u@svc.test:8080/a?q" = .ok base ∧ base.base.scheme.isWeb = true ∧
      ofUrl "http://u@svc.test:8080/a/?q" = .ok base' ∧ base.base.AddsSlash base'.base ∧
      (∀ call url, base.url call = .ok url → base.base.StaysBelow ["a".toList] url) ∧
      (∀ call, base'.url call = base.url call) ∧
      (base.url (.run "/../x?#")).map Url.render =
        .ok "http://u@svc.test:8080/a/run/%2F..%2Fx%3F%23?q" ∧
      (base.url (.run "..\n")).map Url.render = .ok "http://u@svc.test:8080/a/?q" := by
  intro client base base'
  have accepted : ofUrl "http://u@svc.test:8080/a?q" = .ok base := by decide +kernel
  have accepted' : ofUrl "http://u@svc.test:8080/a/?q" = .ok base' := by decide +kernel
  have adds : base.base.AddsSlash base'.base := ⟨rfl, rfl⟩
  obtain ⟨names, rooted, stays, slash⟩ := (requests_stayBelow accepted).2 rfl
  obtain rfl : names = ["a".toList] := (Path.names.inj rooted).symm
  refine ⟨accepted, rfl, accepted', adds, stays, fun call => ?_, by decide +kernel,
    by decide +kernel⟩
  exact (slash _ _ accepted' adds call).2 (.inr (by decide))

/-- Only one slash at the end of a base is left out: with one more the requests move, and behind a
base of two slashes they do not go on from the first. -/
theorem slashes_moveRequests :
    let client (names : List (List Char)) : Client :=
      ⟨⟨⟨"http".toList⟩, some ⟨[], [], .domain "svc.test".toList, none⟩, .names names, none, none⟩⟩
    (ofUrl "http://svc.test/a/" = .ok (client ["a".toList, []]) ∧
      ofUrl "http://svc.test/a//" = .ok (client ["a".toList, [], []]) ∧
      (client ["a".toList, []]).base.AddsSlash (client ["a".toList, [], []]).base ∧
      ((client ["a".toList, []]).url .workflows).map Url.render =
        .ok "http://svc.test/a/workflows" ∧
      ((client ["a".toList, [], []]).url .workflows).map Url.render =
        .ok "http://svc.test/a//workflows") ∧
    ofUrl "http://svc.test//" = .ok (client [[], []]) ∧
      ((client [[], []]).url .workflows).map Url.render = .ok "http://svc.test/workflows" ∧
      ¬∃ more, "/workflows".toList =
        (Path.names (withoutEmptyEnd [[], []])).chars ++ '/' :: more := by
  refine ⟨⟨by decide +kernel, by decide +kernel, ⟨rfl, rfl⟩, by decide +kernel, by decide +kernel⟩,
    by decide +kernel, by decide +kernel, ?_⟩
  rintro ⟨more, h⟩
  cases h

end Http.Client

end WorkflowCanvas
