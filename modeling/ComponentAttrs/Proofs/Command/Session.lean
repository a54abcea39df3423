import ComponentAttrs.Command.Session

/-!
A session over time. Commands come one after the other, and the files may be anything at each of
them. The first command that can read the catalog fixes it; until then a session stays as it was
started, and from then on it answers as a new one would have answered at that moment.

* `opened`: what a command on the catalog leaves of a session;
* `after_eq`: a session after any history;
* `answers_from_one_snapshot`: what it answers.
-/
namespace ComponentAttrs.Command

open ComponentAttrs.Files ComponentAttrs.Project

/-- A command with all its choices. -/
inductive Call where
  | attrs (component : String) (publicOnly inTemplate : Option Bool)
  | resolve (component : String) (written : Option String) (publicOnly : Option Bool)
  | locals (component : String)
  | graph (component : Option String) (format : String)
  | parse (written : Option String)

def Call.needsCatalog : Call → Bool
  | .parse _ => false
  | _ => true

/-- Exit code and output, or how the command breaks down; what is said on the way is left out. -/
def Answer.result (a : Answer) : Except Breakdown (Nat × String) := a.map fun r => (r.code, r.out)

namespace Session

def answer (s : Session) (files : Tree) : Call → Session × Answer
  | .attrs component publicOnly inTemplate => s.attrs files component publicOnly inTemplate
  | .resolve component written publicOnly => s.resolve files component written publicOnly
  | .locals component => s.locals files component
  | .graph component format => s.graph files component format
  | .parse written => (s, s.parse written)

/-- Commands so far, each with the files of its moment. -/
abbrev History := List (Tree × Call)

def after (s : Session) (history : History) : Session :=
  history.foldl (fun s moment => (s.answer moment.1 moment.2).1) s

/-- The files of the first command on the catalog at which it could be read. -/
def snapshot? (s : Session) (history : History) : Option Tree :=
  (history.find? fun moment => moment.2.needsCatalog &&
    (Catalog.load moment.1 s.base s.catalogPath).isOk).map (·.1)

/-! ## One command -/

/-- What a command on the catalog leaves of a session, whatever it answers. -/
def opened (s : Session) (files : Tree) : Session :=
  match s.loaded files with
  | .ok (_, s, _) => s
  | .error _ => s

theorem fst_onCatalog (s : Session) (files : Tree) (doing : String) (component : Option String)
    (answer : Catalog → Option Component → Answer) :
    (s.onCatalog files doing component answer).1 = s.opened files := by
  unfold onCatalog opened
  cases s.loaded files with
  | error e => cases e <;> rfl
  | ok loaded =>
    obtain ⟨c, later, log⟩ := loaded
    dsimp only
    split <;> rfl

theorem fst_answer (s : Session) (files : Tree) (call : Call) :
    (s.answer files call).1 = if call.needsCatalog then s.opened files else s := by
  cases call with
  | parse written => rfl
  | attrs => exact fst_onCatalog ..
  | resolve => exact fst_onCatalog ..
  | locals => exact fst_onCatalog ..
  | graph => exact fst_onCatalog ..

section

variable {s : Session}

theorem opened_of_catalog_eq_some {c : Catalog} (h : s.catalog = some c) (files : Tree) :
    s.opened files = s := by
  simp only [opened, loaded, h]

theorem opened_of_load_eq_ok (h : s.catalog = none) {files : Tree} {c : Catalog}
    (hc : Catalog.load files s.base s.catalogPath = .ok c) :
    s.opened files = { s with catalog := some c } := by
  simp only [opened, loaded, h, hc]
  rfl

theorem opened_of_load_eq_error (h : s.catalog = none) {files : Tree} {e : LoadFailure}
    (he : Catalog.load files s.base s.catalogPath = .error e) : s.opened files = s := by
  simp only [opened, loaded, h, he]
  rfl

/-- A catalog that has been read before is the one that would be read now, but for the log. -/
theorem result_onCatalog (h : s.catalog = none) {files : Tree} {c : Catalog}
    (hc : Catalog.load files s.base s.catalogPath = .ok c) (later : Tree) (doing : String)
    (component : Option String) (answer : Catalog → Option Component → Answer) :
    Answer.result (onCatalog { s with catalog := some c } later doing component answer).2 =
      Answer.result (s.onCatalog files doing component answer).2 := by
  have hnow : s.loaded files =
      .ok (c, { s with catalog := some c }, c.loadLog s.catalogPath) := by
    simp only [loaded, h, hc]
    rfl
  have hbefore : loaded { s with catalog := some c } later =
      .ok (c, { s with catalog := some c }, []) := rfl
  -- only what is said on the way tells whether the catalog has just been read
  have hafter : ∀ (log log' : List LogRecord) (a : Answer),
      Answer.result (a.map (Report.after log)) = Answer.result (a.map (Report.after log')) := by
    intro log log' a
    cases a <;> rfl
  simp only [onCatalog, hnow, hbefore]
  cases component with
  | none => exact hafter _ _ _
  | some name =>
    dsimp only
    cases c.require name with
    | error e => rfl
    | ok d => exact hafter _ _ _

theorem result_answer (h : s.catalog = none) {files : Tree} {c : Catalog}
    (hc : Catalog.load files s.base s.catalogPath = .ok c) (later : Tree) (call : Call) :
    Answer.result (answer { s with catalog := some c } later call).2 =
      Answer.result (s.answer files call).2 := by
  cases call with
  | parse written => rfl
  | attrs => exact result_onCatalog h hc ..
  | resolve => exact result_onCatalog h hc ..
  | locals => exact result_onCatalog h hc ..
  | graph => exact result_onCatalog h hc ..

/-! ## Any history -/

theorem after_of_catalog_eq_some {c : Catalog} (h : s.catalog = some c) (history : History) :
    s.after history = s := by
  induction history with
  | nil => rfl
  | cons moment history ih =>
    have hstep : (s.answer moment.1 moment.2).1 = s := by
      rw [fst_answer, opened_of_catalog_eq_some h, ite_self]
    rw [after, List.foldl_cons, hstep]
    exact ih

theorem after_eq (h : s.catalog = none) (history : History) :
    s.after history =
      match s.snapshot? history with
      | none => s
      | some files => s.opened files := by
  induction history with
  | nil => rfl
  | cons moment history ih =>
    obtain ⟨files, call⟩ := moment
    have hrest : s.after ((files, call) :: history) = (s.answer files call).1.after history := rfl
    rw [hrest, fst_answer]
    cases hcall : call.needsCatalog with
    | false => simpa [snapshot?, hcall] using ih
    | true =>
      -- a catalog that cannot be read leaves the rest of the history to `s`; one that can be read
      -- leaves nothing to be changed
      cases hload : Catalog.load files s.base s.catalogPath with
      | error e =>
        have hopened := opened_of_load_eq_error h hload
        simpa [snapshot?, hcall, hload, hopened, Except.isOk, Except.toBool] using ih
      | ok c =>
        have hopened := opened_of_load_eq_ok h hload
        have hstay := after_of_catalog_eq_some (s := { s with catalog := some c }) rfl history
        simp [snapshot?, hcall, hload, hopened, hstay, Except.isOk, Except.toBool]

/-- No command so far was able to read the catalog. -/
theorem snapshot?_eq_none_iff {history : History} :
    s.snapshot? history = none ↔ ∀ moment ∈ history, moment.2.needsCatalog →
      ∃ e, Catalog.load moment.1 s.base s.catalogPath = .error e := by
  rw [snapshot?, Option.map_eq_none_iff, List.find?_eq_none]
  refine forall₂_congr fun moment _ => ?_
  cases Catalog.load moment.1 s.base s.catalogPath <;> simp [Except.isOk, Except.toBool]

theorem load_of_snapshot?_eq_some {history : History} {files : Tree}
    (h : s.snapshot? history = some files) :
    ∃ c, Catalog.load files s.base s.catalogPath = .ok c := by
  obtain ⟨moment, hfind, rfl⟩ := Option.map_eq_some_iff.mp h
  have hok := List.find?_some hfind
  cases hload : Catalog.load moment.1 s.base s.catalogPath with
  | error e => simp [hload, Except.isOk, Except.toBool] at hok
  | ok c => exact ⟨c, rfl⟩

/-- Nothing but the catalog is ever changed. -/
theorem withoutCatalog_after (h : s.catalog = none) (history : History) :
    { s.after history with catalog := none } = s := by
  have hself : { s with catalog := none } = s := by rw [← h]
  rw [after_eq h]
  cases hsnapshot : s.snapshot? history with
  | none => exact hself
  | some files =>
    obtain ⟨c, hc⟩ := load_of_snapshot?_eq_some hsnapshot
    simp only [opened_of_load_eq_ok h hc]
    exact hself

theorem result_answer_after (h : s.catalog = none) (history : History) (files : Tree)
    (call : Call) :
    Answer.result ((s.after history).answer files call).2 =
      Answer.result (s.answer ((s.snapshot? history).getD files) call).2 := by
  rw [after_eq h]
  cases hsnapshot : s.snapshot? history with
  | none => rfl
  | some snapshot =>
    obtain ⟨c, hc⟩ := load_of_snapshot?_eq_some hsnapshot
    simp only [opened_of_load_eq_ok h hc]
    exact result_answer h hc files call

end

/-! ## From the start -/

section

variable {files₀ : Tree} {base : Location} {root catalogPath : Option Path}
  {format : Option String} {started : Logged Session}

theorem currentRoot_of_rootHere {found : Path}
    (h : rootHere files₀ base = .ok found) : currentRoot files₀ base = found := by
  rw [currentRoot, h]
  rfl

/-- A session starts from the root that is given or found, with a search that has not broken off. -/
theorem start_eq_of_start_eq_ok (h : start files₀ base root catalogPath format = .ok started) :
    start files₀ base (some (root.getD (currentRoot files₀ base))) catalogPath format =
      .ok started := by
  cases root with
  | some given => exact h
  | none =>
    cases hfound : rootHere files₀ base with
    | error fault =>
      simp only [start, hfound] at h
      cases h
    | ok found =>
      rw [Option.getD_none, currentRoot_of_rootHere hfound, ← h]
      simp only [start, hfound]
      rfl

/-- A session starts without a catalog, and with the settings of its project at that moment. -/
theorem of_start_eq_ok (h : start files₀ base root catalogPath format = .ok started) :
    started.value.catalog = none ∧
      ∃ log, loadCatalogSettings files₀ base (root.getD (currentRoot files₀ base)) =
        .ok ⟨started.value.settings, log⟩ := by
  replace h := start_eq_of_start_eq_ok h
  simp only [start, bind, Except.bind] at h
  cases hsettings : loadCatalogSettings files₀ base (root.getD (currentRoot files₀ base)) with
  | error b => simp only [hsettings, reduceCtorEq] at h
  | ok settings =>
    simp only [hsettings] at h
    cases hformat : format.filter (· ≠ "") with
    | some chosen =>
      simp only [hformat] at h
      obtain rfl := Except.ok.inj h
      exact ⟨rfl, settings.log, rfl⟩
    | none =>
      cases houtput : loadOutputSettings files₀ base (root.getD (currentRoot files₀ base)) with
      | error b => simp only [hformat, houtput, reduceCtorEq] at h
      | ok output =>
        simp only [hformat, houtput] at h
        obtain rfl := Except.ok.inj h
        exact ⟨rfl, settings.log, rfl⟩

/-- After any commands a session is as it was started, but for the catalog. As long as the catalog
could not be read it is as it was started in all, so that it answers as a new session; from the
first command on that could read it, it answers as a new session would have at that moment. Taking
a name apart depends on none of this. -/
theorem answers_from_one_snapshot
    (hstart : start files₀ base root catalogPath format = .ok started) (history : History) :
    let fresh := started.value
    let s := fresh.after history
    ({ s with catalog := none } = fresh ∧
      ∃ log, loadCatalogSettings files₀ base (root.getD (currentRoot files₀ base)) =
        .ok ⟨s.settings, log⟩) ∧
    (fresh.snapshot? history = none → s = fresh ∧ ∀ moment ∈ history, moment.2.needsCatalog →
      ∃ e, Catalog.load moment.1 fresh.base fresh.catalogPath = .error e) ∧
    (∀ files call, Answer.result (s.answer files call).2 =
      Answer.result (fresh.answer ((fresh.snapshot? history).getD files) call).2) ∧
    ∀ written files elsewhere,
      (s.answer files (.parse written)).2 = (fresh.answer elsewhere (.parse written)).2 := by
  intro fresh s
  have hnone : fresh.catalog = none := (of_start_eq_ok hstart).1
  have hkept : { s with catalog := none } = fresh := withoutCatalog_after hnone history
  refine ⟨⟨hkept, ?_⟩, fun h => ⟨?_, snapshot?_eq_none_iff.mp h⟩,
    fun files call => result_answer_after hnone history files call, fun written _ _ => ?_⟩
  · have hsettings : s.settings = fresh.settings :=
      (congrArg settings hkept : settings { s with catalog := none } = fresh.settings)
    rw [hsettings]
    exact (of_start_eq_ok hstart).2
  · have hafter := after_eq hnone history
    rw [h] at hafter
    exact hafter
  · have hparse : s.parse written = parse { s with catalog := none } written := rfl
    exact hparse.trans (congrArg (parse · written) hkept)

end

def catalogPlace : Path := .ofString standardCatalog

/-- A catalog without components. -/
def onlyCatalog : Tree := ⟨[([standardCatalog], .file ⟨#[]⟩)]⟩

/-- First there is no catalog, then there is one, without the component that is asked for; then it
is gone again, which does not matter any more. -/
theorem answers_after_catalog_removed :
    ∃ started, start .empty [] none (some catalogPlace) none = .ok started ∧
      let history : History :=
        [(.empty, .attrs "box" none none), (onlyCatalog, .locals "box")]
      Answer.result ((started.value.after history).answer .empty (.graph none jsonFormat)).2 =
        Answer.result (started.value.answer onlyCatalog (.graph none jsonFormat)).2 := by
  refine ⟨_, rfl, ?_⟩
  intro history
  have hmissing : (Catalog.load .empty [] catalogPlace).isOk = false := by decide +kernel
  have hread : (Catalog.load onlyCatalog [] catalogPlace).isOk = true := by decide +kernel
  have hsnapshot : ∀ s : Session, s.base = [] → s.catalogPath = catalogPlace →
      s.snapshot? history = some onlyCatalog := by
    intro s hbase hpath
    simp [history, snapshot?, Call.needsCatalog, hbase, hpath, hmissing, hread]
  have hstart : start .empty [] none (some catalogPlace) none = .ok _ := rfl
  have hanswer :=
    (answers_from_one_snapshot hstart history).2.2.1 .empty (.graph none jsonFormat)
  rw [hsnapshot _ rfl rfl] at hanswer
  exact hanswer

end Session

end ComponentAttrs.Command
