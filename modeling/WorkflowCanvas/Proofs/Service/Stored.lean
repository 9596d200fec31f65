import WorkflowCanvas.Proofs.Json.Stored
import WorkflowCanvas.Settings
import WorkflowCanvas.Summary

/-!
# Values of the service written and read again

Summaries, responses and settings hold texts only, so each of them is read back from its JSON text
in either layout.  What is absent stays absent and what is empty stays empty; in particular a
workflow that never ran is not taken for one that could not be looked up.

Settings are kept in a file.  The place that was written is not a directory, and a walk passes
through directories only, so the walk that led to the file leads to it again
(`Storage.readText?_of_writeFile`).
-/

namespace WorkflowCanvas

/-! ## Files -/

namespace Storage

variable {d d' : Storage} {place : Place}

lemma lookup_put_self (hroot : place ≠ []) (entry : Entry) :
    Storage.entry? (d.put place entry) place = some entry := by
  cases place with
  | nil => exact absurd rfl hroot
  | cons name names => exact List.lookup_cons_self

lemma lookup_put_of_ne {other : Place} (hne : other ≠ place) (entry : Entry) :
    Storage.entry? (d.put place entry) other = d.entry? other := by
  cases other with
  | nil => rfl
  | cons name names =>
    change List.lookup (name :: names) ((place, entry) :: d.entries) = _
    rw [List.lookup_cons, beq_eq_false_iff_ne.2 hne]
    rfl

/-- Where a name leads from a directory. -/
def next (place : Place) (name : String) : Place :=
  if name = "." then place else if name = ".." then place.dropLast else place ++ [name]

lemma walkFrom_cons {start : Place} (h : d.entry? start = some .directory) (name : String)
    (names : List String) :
    d.walkFrom start (name :: names) = d.walkFrom (next start name) names := by
  rw [walkFrom, h, next]
  dsimp only
  split_ifs <;> rfl

lemma directory_of_walkFrom {start final : Place} {name : String} {names : List String}
    (h : d.walkFrom start (name :: names) = .ok final) : d.entry? start = some .directory := by
  unfold walkFrom at h
  split at h
  · assumption
  · cases h
  · cases h

/-- A walk does not meet a place that is no directory before its end. -/
lemma walkFrom_put (entry : Entry) (hplace : d.entry? place ≠ some .directory)
    {names : List String} {start final : Place} (h : d.walkFrom start names = .ok final) :
    (d.put place entry).walkFrom start names = .ok final := by
  induction names generalizing start with
  | nil => exact h
  | cons name names ih =>
    have hstart := directory_of_walkFrom h
    have hne : start ≠ place := by
      rintro rfl
      exact hplace hstart
    rw [walkFrom_cons hstart] at h
    rw [walkFrom_cons ((lookup_put_of_ne hne entry).trans hstart)]
    exact ih h

/-- A text that was written is read from the same directory. -/
lemma readText?_of_writeFile {directory : List String} {name text : String}
    (h : d.writeFile directory name (Symbol.ofText text) = .ok d') :
    d'.readText? directory name = .ok (some text) := by
  unfold writeFile at h
  cases hwalk : d.walk (directory ++ [name]) with
  | error e =>
    rw [hwalk] at h
    cases h
  | ok place =>
    rw [hwalk] at h
    have hplace : d.entry? place ≠ some .directory := by
      intro hdirectory
      simp only [bind, Except.bind, hdirectory] at h
      cases h
    have hput : d' = d.put place (.file (Symbol.ofText text)) := by
      simp only [bind, Except.bind] at h
      exact (Except.ok.inj h).symm
    have hroot : place ≠ [] := by
      rintro rfl
      exact hplace rfl
    have hfind : d'.find? (directory ++ [name]) =
        .ok (place, .file (Symbol.ofText text)) := by
      have hwalk' : d'.walk (directory ++ [name]) = .ok place := by
        rw [hput]
        exact walkFrom_put _ hplace hwalk
      have hentry : d'.entry? place = some (.file (Symbol.ofText text)) := by
        rw [hput]
        exact lookup_put_self hroot _
      simp only [find?, hwalk', bind, Except.bind, hentry]
    simp only [readText?, hfind, Symbol.toText?_ofText]

end Storage

/-! ## Values -/

/-- Every value of the type is read back from its text in either layout. -/
def Json.ReadsBack (α : Type) [Json.Form α] : Prop :=
  ∀ a : α, Json.read (Json.compact a) = .ok a ∧ Json.read (Json.indented a) = .ok a

lemma Json.readsBack {α : Type} [Json.Form α] (hun : (Json.Form.shape α).isUnambiguous = true)
    (hnumbers : (Json.Form.shape α).isNumberless = true) : Json.ReadsBack α :=
  fun a => ⟨Json.read_written hun hnumbers .compact a, Json.read_written hun hnumbers .indented a⟩

/-- Values that are read back have different texts. -/
lemma Json.ReadsBack.compact_ne {α : Type} [Json.Form α] (h : Json.ReadsBack α) {a b : α}
    (hne : a ≠ b) : Json.compact a ≠ Json.compact b ∧ Json.indented a ≠ Json.indented b := by
  constructor
  · intro heq
    have hread := (h a).1
    rw [heq, (h b).1] at hread
    exact hne (Except.ok.inj hread).symm
  · intro heq
    have hread := (h a).2
    rw [heq, (h b).2] at hread
    exact hne (Except.ok.inj hread).symm

lemma Settings.readsBack : Json.ReadsBack Settings :=
  Json.readsBack (by decide +kernel) (by decide +kernel)

lemma Summary.readsBack : Json.ReadsBack Summary :=
  Json.readsBack (by decide +kernel) (by decide +kernel)

/-- Settings that were saved are loaded from the same directory. -/
lemma Settings.load_of_save {settings : Settings} {d d' : Storage} {directory : List String}
    (h : settings.save d directory = (.ok (), d')) : load d' directory = .ok settings := by
  unfold save at h
  split at h
  · cases h
  rename_i made _
  split at h
  · cases h
  rename_i written hwrite
  obtain rfl := (Prod.mk.inj h).2
  simp only [load, Storage.readText?_of_writeFile hwrite, (Settings.readsBack settings).2,
    Except.mapError]

/-- What is stored or sent comes back as it was: summaries, all responses and settings, whatever
texts they hold; and a workflow without a run is told from one without a look-up. -/
structure ComesBack : Prop where
  summary : Json.ReadsBack Summary
  upload : Json.ReadsBack UploadResponse
  run : Json.ReadsBack RunResponse
  schedule : Json.ReadsBack ScheduleResponse
  workflows : Json.ReadsBack WorkflowListResponse
  status : Json.ReadsBack StatusResponse
  settings : Json.ReadsBack Settings
  /-- The last run that is absent and the one that is empty have different texts. -/
  lastRun : ∀ name status, Json.compact (Summary.mk name status none) ≠
      Json.compact (Summary.mk name status (some "")) ∧
    Json.indented (Summary.mk name status none) ≠
      Json.indented (Summary.mk name status (some ""))
  /-- Settings are loaded as they were saved, from any storage and any directory. -/
  load : ∀ (settings : Settings) d d' directory,
    settings.save d directory = (.ok (), d') → Settings.load d' directory = .ok settings

/-- Nothing is lost between writing and reading. -/
theorem storedValues_comeBack : ComesBack where
  summary := Summary.readsBack
  upload := Json.readsBack (by decide +kernel) (by decide +kernel)
  run := Json.readsBack (by decide +kernel) (by decide +kernel)
  schedule := Json.readsBack (by decide +kernel) (by decide +kernel)
  workflows := Json.readsBack (by decide +kernel) (by decide +kernel)
  status := Json.readsBack (by decide +kernel) (by decide +kernel)
  settings := Settings.readsBack
  lastRun name status := Summary.readsBack.compact_ne fun h =>
    Option.some_ne_none "" (congrArg Summary.lastRun h).symm
  load _ _ _ _ := Settings.load_of_save

/-- Settings are saved below a directory that was missing, over a path with detours. -/
example :
    let settings : Settings := ⟨"http://10.0.0.5:9000"⟩
    let saved := settings.save .empty ["nested", ".", "deep", ".."]
    saved.1 = .ok () ∧ Settings.load saved.2 ["nested"] = .ok settings := by
  decide +kernel

end WorkflowCanvas
