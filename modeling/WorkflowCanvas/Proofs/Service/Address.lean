import Mathlib.Data.List.Basic
import WorkflowCanvas.Proofs.Text.LetterCase
import WorkflowCanvas.Proofs.Url.Percent
import WorkflowCanvas.Service.Http

/-!
# Where a workflow is asked for

A run and a status are asked for at the path of the base, the endpoint and the name of the workflow
as one encoded name.  The name can be read back from the path, and different names have different
URLs, for all names but these: `.` and `..` are not appended, and tabs and line ends are taken out.
`Http.Client.requestAddress` says where each of them goes.
-/

namespace WorkflowCanvas

namespace Url

/-! ## Names that lead elsewhere -/

/-- A full stop at the head of a name is read as its byte. -/
lemma percentDecode_of_dot {name rest : List Char} (h : name.map Char.toLower = '.' :: rest) :
    ∃ tail, tail.map Char.toLower = rest ∧ percentDecode name = 0x2E :: percentDecode tail := by
  obtain ⟨c, tail, rfl, hc, htail⟩ := List.map_eq_cons_iff.mp h
  obtain rfl := eq_of_toLower_eq hc (by decide)
  exact ⟨tail, htail, percentDecode_cons_of_ne (by decide) tail⟩

/-- So is one behind a percent sign, with its digit in either case. -/
lemma percentDecode_of_escapedDot {name rest : List Char}
    (h : name.map Char.toLower = '%' :: '2' :: 'e' :: rest) :
    ∃ tail, tail.map Char.toLower = rest ∧ percentDecode name = 0x2E :: percentDecode tail := by
  obtain ⟨sign, name, rfl, hsign, h⟩ := List.map_eq_cons_iff.mp h
  obtain ⟨high, name, rfl, hhigh, h⟩ := List.map_eq_cons_iff.mp h
  obtain ⟨low, tail, rfl, hlow, htail⟩ := List.map_eq_cons_iff.mp h
  obtain rfl := eq_of_toLower_eq hsign (by decide)
  obtain rfl := eq_of_toLower_eq hhigh (by decide)
  have hdigit : Text.digit? 16 low = some 14 := by
    obtain rfl | ⟨hnumber, -, -⟩ := eq_or_capital_of_toLower_eq hlow
    · decide
    · obtain rfl : low = 'E' := Char.toNat_inj.mp (Nat.add_right_cancel hnumber)
      decide
  refine ⟨tail, htail, ?_⟩
  rw [percentDecode.eq_def]
  simp only [if_true, hdigit, show Text.digit? 16 '2' = some 2 from by decide]
  rfl

lemma percentDecode_of_isDot {name : List Char} (h : isDot name = true) :
    percentDecode name = ['.'].flatMap String.utf8EncodeChar := by
  have hend : ∀ tail : List Char, tail.map Char.toLower = [] →
      0x2E :: percentDecode tail = ['.'].flatMap String.utf8EncodeChar := by
    intro tail htail
    rw [List.map_eq_nil_iff.mp htail]
    rfl
  simp only [isDot, List.contains_cons, List.contains_nil, Bool.or_false, Bool.or_eq_true,
    beq_iff_eq] at h
  obtain h | h := h
  · obtain ⟨tail, htail, hread⟩ := percentDecode_of_dot h
    rw [hread, hend tail htail]
  · obtain ⟨tail, htail, hread⟩ := percentDecode_of_escapedDot h
    rw [hread, hend tail htail]

lemma percentDecode_of_isDoubleDot {name : List Char} (h : isDoubleDot name = true) :
    percentDecode name = ['.', '.'].flatMap String.utf8EncodeChar := by
  have hend : ∀ tail : List Char, isDot tail = true →
      0x2E :: percentDecode tail = ['.', '.'].flatMap String.utf8EncodeChar := by
    intro tail htail
    rw [percentDecode_of_isDot htail]
    rfl
  have hdot : ∀ tail : List Char, tail.map Char.toLower = ".".toList → isDot tail = true := by
    intro tail htail
    rw [isDot, htail]
    rfl
  have hescaped : ∀ tail : List Char, tail.map Char.toLower = "%2e".toList →
      isDot tail = true := by
    intro tail htail
    rw [isDot, htail]
    rfl
  simp only [isDoubleDot, List.contains_cons, List.contains_nil, Bool.or_false, Bool.or_eq_true,
    beq_iff_eq] at h
  obtain h | h | h | h := h
  · obtain ⟨tail, htail, hread⟩ := percentDecode_of_dot h
    rw [hread, hend tail (hdot tail htail)]
  · obtain ⟨tail, htail, hread⟩ := percentDecode_of_escapedDot h
    rw [hread, hend tail (hdot tail htail)]
  · obtain ⟨tail, htail, hread⟩ := percentDecode_of_dot h
    rw [hread, hend tail (hescaped tail htail)]
  · obtain ⟨tail, htail, hread⟩ := percentDecode_of_escapedDot h
    rw [hread, hend tail (hescaped tail htail)]

/-- Only the text `.` is encoded as a name that stays where it is. -/
lemma isDot_percentEncode {special : Bool} (text : List Char) :
    isDot (percentEncode (segmentReserved special) text) = true ↔ text = ['.'] := by
  constructor
  · intro h
    have hread := percentDecode_of_isDot h
    rw [percentDecode_percentEncode rfl] at hread
    exact flatMap_utf8EncodeChar_injective hread
  · rintro rfl
    cases special <;> rfl

/-- Only the text `..` is encoded as a name that leads up. -/
lemma isDoubleDot_percentEncode {special : Bool} (text : List Char) :
    isDoubleDot (percentEncode (segmentReserved special) text) = true ↔ text = ['.', '.'] := by
  constructor
  · intro h
    have hread := percentDecode_of_isDoubleDot h
    rw [percentDecode_percentEncode rfl] at hread
    exact flatMap_utf8EncodeChar_injective hread
  · rintro rfl
    cases special <;> rfl

/-! ## Paths of web URLs -/

lemma Scheme.cases_of_isWeb {s : Scheme} (web : s.isWeb = true) :
    s = ⟨"http".toList⟩ ∨ s = ⟨"https".toList⟩ := by
  obtain ⟨name⟩ := s
  simpa [Scheme.isWeb] using web

lemma Scheme.isSpecial_of_isWeb {s : Scheme} (web : s.isWeb = true) : s.isSpecial = true := by
  obtain rfl | rfl := cases_of_isWeb web <;> rfl

lemma settle_of_isWeb {s : Scheme} (web : s.isWeb = true) (names : List (List Char)) :
    settle s names = names := by
  obtain rfl | rfl := Scheme.cases_of_isWeb web <;> rfl

/-- The names of a path without an empty one at the end. -/
def withoutEmptyEnd (names : List (List Char)) : List (List Char) :=
  if names.getLast? = some [] then names.dropLast else names

/-- The names that requests are appended to: an empty name that would stand alone in front of them
is left out too. -/
def requestRoot (names : List (List Char)) : List (List Char) :=
  if withoutEmptyEnd names = [[]] then [] else withoutEmptyEnd names

lemma requestRoot_eq (names : List (List Char)) :
    requestRoot names =
      if dropEmptyName names = [[]] then [] else dropEmptyName names := by
  obtain rfl | ⟨init, last, rfl⟩ := names.eq_nil_or_concat'
  · rfl
  · cases last with
    | nil => cases init <;> simp [requestRoot, withoutEmptyEnd, dropEmptyName]
    | cons c last => simp [requestRoot, withoutEmptyEnd, dropEmptyName]

lemma above_append {names : List (List Char)} {name : List Char} (hname : isDrive name = false) :
    above (names ++ [name]) = names := by
  simp [above, hname]

/-- What the path of a request ends with behind its root. -/
def requestEnding (endpoint workflow : List Char) : List (List Char) :=
  let kept := workflow.filter (!isLayout ·)
  if workflow = ['.'] ∨ workflow = ['.', '.'] then [endpoint]
  else if kept = ['.', '.'] then [[]]
  else if kept = ['.'] then [endpoint, []]
  else [endpoint, percentEncode (segmentReserved true) kept]

end Url

open Url

lemma Endpoint.eq_of_name_eq {endpoint endpoint' : Endpoint}
    (h : endpoint.name.toList = endpoint'.name.toList) : endpoint = endpoint' := by
  revert h
  cases endpoint <;> cases endpoint' <;> decide

/-- The workflow that a call is about. -/
def Call.workflow? : Call → Option String
  | .run workflow | .status workflow => some workflow
  | _ => none

lemma Call.endpoint_of_workflow? {call : Call} {workflow : String}
    (about : call.workflow? = some workflow) :
    call.endpoint = .run ∨ call.endpoint = .status := by
  cases call with
  | run _ => exact .inl rfl
  | status _ => exact .inr rfl
  | _ => cases about

namespace Url

section Web

variable {s : Scheme} (web : s.isWeb = true) {endpoint : Endpoint}
include web

lemma appendName_endpoint (endpoint : Endpoint) (names : List (List Char)) :
    appendName s names endpoint.name.toList =
      (if names = [[]] then [] else names) ++ [endpoint.name.toList] := by
  obtain rfl | rfl := Scheme.cases_of_isWeb web <;> cases endpoint <;> rfl

lemma appendName_workflow (named : endpoint = .run ∨ endpoint = .status)
    (names : List (List Char)) (workflow : List Char) :
    appendName s (names ++ [endpoint.name.toList]) workflow =
      names ++ requestEnding endpoint.name.toList workflow := by
  have hdrive : isDrive endpoint.name.toList = false := by
    obtain rfl | rfl := named <;> rfl
  have hstart : names ++ [endpoint.name.toList] ≠ [[]] := by
    intro h
    have hlast := congrArg List.getLast? h
    rw [List.getLast?_concat] at hlast
    obtain rfl | rfl := named <;> cases hlast
  unfold appendName requestEnding
  by_cases hskipped : workflow = ['.'] ∨ workflow = ['.', '.']
  · rw [if_pos hskipped, if_pos hskipped]
  · rw [if_neg hskipped, if_neg hskipped, if_neg hstart, settle_of_isWeb web,
      Scheme.isSpecial_of_isWeb web]
    generalize workflow.filter (!isLayout ·) = kept
    unfold follow
    simp only [isDoubleDot_percentEncode, isDot_percentEncode, above_append hdrive, if_true]
    split
    · rfl
    · split
      · rw [List.append_assoc, List.singleton_append]
      · rw [List.append_assoc, List.singleton_append]

end Web

/-! ## Texts of URLs -/

/-- The guard of a path with several names looks at the first of them only. -/
lemma pathGuard_names (u : Url) (first second : List Char) (rest : List (List Char)) :
    ({ u with path := .names (first :: second :: rest) } : Url).pathGuard =
      if u.authority = none ∧ first = [] then ['/', '.'] else [] := by
  obtain ⟨scheme, authority, path, query, fragment⟩ := u
  cases authority <;> cases first <;> simp [pathGuard]

/-- URLs that differ in the two names behind a common root have different texts if these names hold
no slash. -/
lemma names_eq_of_render_eq {u : Url} {root : List (List Char)}
    {first first' last last' : List Char} (hne : first ≠ []) (hne' : first' ≠ [])
    (hfirst : '/' ∉ first) (hlast : '/' ∉ last)
    (h : ({ u with path := .names (root ++ [first, last]) } : Url).render =
      ({ u with path := .names (root ++ [first', last']) } : Url).render) :
    first = first' ∧ last = last' := by
  have hguard : ({ u with path := .names (root ++ [first, last]) } : Url).pathGuard =
      ({ u with path := .names (root ++ [first', last']) } : Url).pathGuard := by
    match root with
    | [] =>
      rw [List.nil_append, List.nil_append, pathGuard_names, pathGuard_names]
      simp only [hne, hne']
    | [name] =>
      rw [List.singleton_append, List.singleton_append, pathGuard_names, pathGuard_names]
    | name :: name' :: root =>
      rw [List.cons_append, List.cons_append, List.cons_append, List.cons_append, pathGuard_names,
        pathGuard_names]
  have hchars := String.ofList_injective h
  unfold chars originChars at hchars
  rw [hguard] at hchars
  have hpath := List.append_cancel_left (List.append_cancel_right hchars)
  simp only [Path.chars, List.flatMap_append, List.append_cancel_left_eq, List.flatMap_cons,
    List.flatMap_nil, List.append_nil, List.cons_append, List.cons.injEq, true_and] at hpath
  obtain ⟨hfirsts, -, hlasts⟩ :=
    (List.append_cons_inj_of_notMem hfirst hlast).mp hpath
  exact ⟨hfirsts, hlasts⟩

end Url

namespace Http.Client

/-! ## Requests about a workflow -/

/-- A name that can be told from the path of a URL. -/
structure IsAddressable (workflow : String) : Prop where
  ne_dot : workflow ≠ "."
  ne_dots : workflow ≠ ".."
  noLayout : ∀ c ∈ workflow.toList, isLayout c = false

lemma IsAddressable.filter_eq {workflow : String} (h : IsAddressable workflow) :
    workflow.toList.filter (!isLayout ·) = workflow.toList :=
  List.filter_eq_self.mpr fun c hc => by rw [h.noLayout c hc]; rfl

lemma toList_eq_dot_iff (workflow : String) : workflow.toList = ['.'] ↔ workflow = "." := by
  rw [← String.toList_inj]
  rfl

lemma toList_eq_dots_iff (workflow : String) : workflow.toList = ['.', '.'] ↔ workflow = ".." := by
  rw [← String.toList_inj]
  rfl

lemma requestEnding_of_isAddressable {workflow : String} (h : IsAddressable workflow)
    (endpoint : List Char) :
    requestEnding endpoint workflow.toList =
      [endpoint, percentEncode (segmentReserved true) workflow.toList] := by
  have hdot : workflow.toList ≠ ['.'] := mt (toList_eq_dot_iff workflow).mp h.ne_dot
  have hdots : workflow.toList ≠ ['.', '.'] := mt (toList_eq_dots_iff workflow).mp h.ne_dots
  simp only [requestEnding, h.filter_eq, hdot, hdots, or_self, if_false]

/-- A path that ends as it should belongs to an addressable name. -/
lemma isAddressable_of_requestEnding {workflow : String} {endpoint last : List Char}
    (hending : requestEnding endpoint workflow.toList = [endpoint, last])
    (hread : (percentDecode last).toByteArray = workflow.toUTF8) : IsAddressable workflow := by
  have hbytes : percentDecode last = workflow.toList.flatMap String.utf8EncodeChar := by
    rw [← List.toByteArray_inj, hread, toByteArray_flatMap_utf8EncodeChar, String.ofList_toList]
  simp only [requestEnding] at hending
  split at hending
  · simp at hending
  rename_i hskipped
  rw [not_or, toList_eq_dot_iff, toList_eq_dots_iff] at hskipped
  -- A last name that is empty would be read as the empty text, which is not taken for a dot.
  have hkept : workflow.toList.filter (!isLayout ·) = workflow.toList := by
    split at hending
    · simp at hending
    split at hending
    · rename_i hdot
      simp only [List.cons.injEq, and_true, true_and] at hending
      subst hending
      have hempty : workflow.toList = [] := flatMap_utf8EncodeChar_injective hbytes.symm
      rw [hempty] at hdot
      cases hdot
    · simp only [List.cons.injEq, and_true, true_and] at hending
      rw [← hending, percentDecode_percentEncode rfl] at hbytes
      exact flatMap_utf8EncodeChar_injective hbytes
  refine ⟨hskipped.1, hskipped.2, fun c hc => ?_⟩
  simpa using List.filter_eq_self.mp hkept c hc

variable {client : Client} {names : List (List Char)}

/-- The URL of a run or a status. -/
lemma url_eq (web : client.base.scheme.isWeb = true) (rooted : client.base.path = .names names)
    {call : Call} {workflow : String} (about : call.workflow? = some workflow) :
    client.url call = .ok { client.base with
      path := .names (requestRoot names ++
        requestEnding call.endpoint.name.toList workflow.toList) } := by
  have hnames : Client.names call = [call.endpoint.name, workflow] := by
    cases call <;> cases about <;> rfl
  have happend : client.base.append? ([call.endpoint.name, workflow].map String.toList) =
      some { client.base with
        path := .names (requestRoot names ++
          requestEnding call.endpoint.name.toList workflow.toList) } := by
    have named := Call.endpoint_of_workflow? about
    unfold append?
    rw [rooted]
    simp only [List.map_cons, List.map_nil, List.foldl_cons, List.foldl_nil,
      appendName_endpoint web, ← requestRoot_eq, appendName_workflow web named]
  rw [url, hnames, happend]

/-- The URL has the path of the base without one empty name at the end, the endpoint and a last name
that is read back as the name of the workflow. -/
def Addresses (client : Client) (names : List (List Char)) (call : Call) (workflow : String)
    (url : Url) : Prop :=
  ∃ last, url = { client.base with
      path := .names (withoutEmptyEnd names ++ [call.endpoint.name.toList, last]) } ∧
    (percentDecode last).toByteArray = workflow.toUTF8

lemma requestEnding_length_le (endpoint workflow : List Char) :
    (requestEnding endpoint workflow).length ≤ 2 := by
  simp only [requestEnding]
  split_ifs <;> simp

/-- Which names the URLs that are built address. -/
lemma addresses_iff (call : Call) (workflow : String) :
    client.Addresses names call workflow { client.base with
      path := .names (requestRoot names ++
        requestEnding call.endpoint.name.toList workflow.toList) } ↔
      IsAddressable workflow ∧ withoutEmptyEnd names ≠ [[]] := by
  constructor
  · rintro ⟨last, hurl, hread⟩
    have hpath : requestRoot names ++ requestEnding call.endpoint.name.toList workflow.toList =
        withoutEmptyEnd names ++ [call.endpoint.name.toList, last] :=
      Path.names.inj (congrArg Url.path hurl)
    have hroot : withoutEmptyEnd names ≠ [[]] := by
      intro hempty
      have hlength := congrArg List.length hpath
      have hle := requestEnding_length_le call.endpoint.name.toList workflow.toList
      simp only [requestRoot, hempty, if_true, List.nil_append, List.length_append,
        List.length_cons, List.length_nil] at hlength
      omega
    rw [requestRoot, if_neg hroot] at hpath
    exact ⟨isAddressable_of_requestEnding (List.append_cancel_left hpath) hread, hroot⟩
  · rintro ⟨haddressable, hroot⟩
    refine ⟨percentEncode (segmentReserved true) workflow.toList, ?_, ?_⟩
    · rw [requestEnding_of_isAddressable haddressable, requestRoot, if_neg hroot]
    · rw [percentDecode_percentEncode rfl, toByteArray_flatMap_utf8EncodeChar,
        String.ofList_toList]

/-- The base of a client has been read from the text and can be appended to. -/
lemma base_of_ofUrl [Idna] {text : String} (accepted : ofUrl text = .ok client) :
    ofText text = .ok client.base ∧ client.base.isRootless = false := by
  unfold ofUrl at accepted
  split at accepted
  · cases accepted
  · rename_i url hread
    split at accepted
    · cases accepted
    · rename_i hrooted
      obtain rfl := Except.ok.inj accepted
      exact ⟨hread, Bool.eq_false_iff.2 hrooted⟩

/-- The base of a client has a path of names. -/
lemma path_of_ofUrl [Idna] {text : String} (accepted : ofUrl text = .ok client) :
    ∃ names, client.base.path = .names names := by
  obtain ⟨-, hrooted⟩ := base_of_ofUrl accepted
  cases hpath : client.base.path with
  | names names => exact ⟨names, rfl⟩
  | rootless plain => simp [isRootless, hpath] at hrooted

/-- The names of two endpoints that a workflow is asked for at. -/
lemma endpoint_name_of_workflow? {call : Call} {workflow : String}
    (about : call.workflow? = some workflow) :
    call.endpoint.name.toList ≠ [] ∧ '/' ∉ call.endpoint.name.toList := by
  obtain h | h := Call.endpoint_of_workflow? about <;> rw [h] <;> decide

lemma eq_of_endpoint_eq {call call' : Call} {workflow : String}
    (about : call.workflow? = some workflow) (about' : call'.workflow? = some workflow)
    (hendpoint : call.endpoint = call'.endpoint) : call = call' := by
  cases call <;> cases about <;> cases call' <;> cases about' <;> first | rfl | cases hendpoint

/-- Where the runs and the statuses that a client asks for go, whatever the workflow is called. -/
structure RequestAddresses (client : Client) (names : List (List Char)) : Prop where
  /-- There is a URL for every name, which is the base up to the path. -/
  path : ∀ {call workflow}, call.workflow? = some workflow →
    client.url call = .ok { client.base with
      path := .names (requestRoot names ++
        requestEnding call.endpoint.name.toList workflow.toList) }
  /-- It addresses the workflow for exactly these names. -/
  faithful_iff : ∀ {call workflow}, call.workflow? = some workflow →
    ((∃ url, client.url call = .ok url ∧ client.Addresses names call workflow url) ↔
      IsAddressable workflow ∧ withoutEmptyEnd names ≠ [[]])
  /-- No two of these names are asked for at one URL. -/
  distinct : ∀ {call call' workflow workflow'}, call.workflow? = some workflow →
    call'.workflow? = some workflow' → IsAddressable workflow → IsAddressable workflow' →
    (client.url call).map Url.render = (client.url call').map Url.render → call = call'

/-- A client of any web URL asks for the run or the status of a workflow at the path of the base
without one empty name at its end, the endpoint and one name that is read back as the name of the
workflow, and so for different workflows at different URLs, if no name is `.` or `..` or holds a
tab or a line end and the base does not consist of two slashes. -/
theorem requestAddress [Idna] {text : String} {client : Client}
    (accepted : ofUrl text = .ok client) (web : client.base.scheme.isWeb = true) :
    ∃ names, client.base.path = .names names ∧ client.RequestAddresses names := by
  obtain ⟨names, rooted⟩ := path_of_ofUrl accepted
  refine ⟨names, rooted, url_eq web rooted, fun about => ?_, ?_⟩
  · simp only [url_eq web rooted about, Except.ok.injEq, exists_eq_left', addresses_iff]
  · intro call call' workflow workflow' about about' haddressable haddressable' h
    rw [url_eq web rooted about, url_eq web rooted about',
      requestEnding_of_isAddressable haddressable,
      requestEnding_of_isAddressable haddressable'] at h
    obtain ⟨hfilled, hslash⟩ := endpoint_name_of_workflow? about
    obtain ⟨hfilled', -⟩ := endpoint_name_of_workflow? about'
    obtain ⟨hendpoint, hlast⟩ := names_eq_of_render_eq hfilled hfilled' hslash
      (slash_not_mem_percentEncode rfl _) (Except.ok.inj h)
    obtain rfl := String.toList_injective (percentEncode_injective rfl hlast)
    exact eq_of_endpoint_eq about about' (Endpoint.eq_of_name_eq hendpoint)

/-- A service below a directory that is written with its slash, one workflow that is asked for as it
is called, and one whose tab is lost, so that another is asked for in its place. -/
theorem requestAddress_samples :
    let client : Client :=
      ⟨⟨⟨"http".toList⟩, some ⟨[], [], .domain "svc.test".toList, none⟩,
        .names ["api".toList, []], none, none⟩⟩
    (∃ names, client.base.path = .names names ∧ client.RequestAddresses names) ∧
      (client.url (.run "a/b c")).map Url.render = .ok "http://svc.test/api/run/a%2Fb%20c" ∧
      (client.url (.run "a\tb")).map Url.render = .ok "http://svc.test/api/run/ab" ∧
      (client.url (.run "ab")).map Url.render = .ok "http://svc.test/api/run/ab" ∧
      (client.url (.run "..")).map Url.render = .ok "http://svc.test/api/run" :=
  ⟨@requestAddress _ "http://svc.test/api/" _ (by decide +kernel) rfl,
    by decide +kernel, by decide +kernel, by decide +kernel, by decide +kernel⟩

end Http.Client

end WorkflowCanvas
