import ComponentAttrs.Proofs.Catalog.Documents
import ComponentAttrs.Proofs.Command.Session
import ComponentAttrs.Proofs.Graph.Writing

/-!
With what a command on the catalog answers, whatever the files hold. A catalog that is refused and a
component that it does not have are answered with a message. Everything else is answered in full,
unless one of few things breaks the command down.

* `Unreadable`: what breaks a command down before there is a catalog;
* `Answerable`: what a command needs once there is one; only a graph asks for more of the catalog;
* `answers_unless_broken`: nothing else breaks a command down.
-/
namespace ComponentAttrs.Command

open ComponentAttrs.Files ComponentAttrs.Document ComponentAttrs.Project

/-- What a command on the catalog is doing, in the words of its messages. -/
def Call.doing? : Call → Option String
  | .attrs .. => some "listing attributes"
  | .resolve .. => some "resolving attribute"
  | .locals _ => some "listing local components"
  | .graph .. => some "generating graph"
  | .parse _ => none

/-- The component that a command asks for. -/
def Call.component? : Call → Option String
  | .attrs component .. => some component
  | .resolve component .. => some component
  | .locals component => some component
  | .graph component _ => component.filter (· ≠ "")
  | .parse _ => none

/-- What a command starts from; nothing if the catalog does not have the component that it asks
for. -/
def Call.root? (call : Call) (c : Catalog) : Option (Option Component) :=
  match call.component? with
  | none => some none
  | some name => (c.get? name).map some

/-! ## Before there is a catalog -/

/-- The path names a file whose text is read with this result. -/
def Reads (files : Tree) (base : Location) (path : Path) (result : Except Yaml.Failure Value) :
    Prop :=
  ∃ bytes, files.look base path = some (.file bytes) ∧ Yaml.read (.ofBytes bytes) = result

/-- What breaks a command down while it reads its catalog: a path that cannot be followed, a scalar
without value, or a document with a fault that there is no message for. -/
inductive Unreadable (files : Tree) (base : Location) (path : Path) : Breakdown → Prop
  | path (long : files.isTooLong base path) : Unreadable files base path (.path .tooLong)
  | scalar {problem : Yaml.ScalarProblem} (h : Reads files base path (.error (.scalar problem))) :
    Unreadable files base path (.scalar problem)
  | file {v : Value} (h : Reads files base path (.ok v)) (fault : ¬ FilesAreTexts v) :
    Unreadable files base path .pathNotText
  | name {v : Value} {obstacle : Obstacle} (h : Reads files base path (.ok v))
    (fault : ¬ NamesAreShown v) : Unreadable files base path (.unshown obstacle)

/-- Nothing is wrong with a document that is empty. -/
theorem documentSound_of_empty (o : Origin) (k : Fault) : DocumentSound (.map o []) k := by
  cases k with
  | shape => exact ⟨⟨o, [], rfl⟩, .inl rfl, nofun, .nothing, .nothing⟩
  | file => exact nofun
  | name => exact nofun

/-- A text without value is read as an empty document. -/
theorem not_documentSound_of_ofValue {source : Option Path} {v : Value} {e : ReadFailure}
    (h : Catalog.ofValue source (if v.truthy then v else .map none []) = .error e) :
    ¬ DocumentSound v e.fault := by
  have hfault := (heeds_ofValue _ _).not_of_error h
  split at hfault
  · exact hfault
  · exact absurd (documentSound_of_empty none _) hfault

section

variable {files : Tree} {base : Location} {path : Path} {b : Breakdown}

theorem unreadable_of_ofSource {bytes : ByteArray}
    (hlook : files.look base path = some (.file bytes))
    (h : Catalog.ofSource path (.ofBytes bytes) = .error (.broken b)) :
    Unreadable files base path b := by
  unfold Catalog.ofSource at h
  split at h
  · cases h
  · cases h
  · next problem hread =>
    cases h
    exact .scalar ⟨bytes, hlook, hread⟩
  · next v hread =>
    split at h
    · cases h
    · next e hvalue =>
      have hfault := not_documentSound_of_ofValue hvalue
      cases e with
      | refused e => cases h
      | pathNotText =>
        cases h
        exact .file ⟨bytes, hlook, hread⟩ hfault
      | unshown obstacle =>
        cases h
        exact .name ⟨bytes, hlook, hread⟩ hfault

theorem unreadable_of_load (h : Catalog.load files base path = .error (.broken b)) :
    Unreadable files base path b := by
  unfold Catalog.load at h
  split at h
  · next hlong =>
    cases h
    exact .path hlong
  · split at h
    · cases h
    · cases h
    · next bytes hlook => exact unreadable_of_ofSource hlook h

end

/-! ## With a catalog -/

/-- All of a graph can be written in a format. In JSON each line is on its own; in YAML an object
that occurs in several lines is looked through once. Its counts are numbers too. -/
structure GraphWritten (format : String) (c : Catalog) (g : Graph Component) : Prop where
  lines : if format = yamlFormat then ∃ t, Yaml.sightAll 4 ⟨[], []⟩ (g.lines c.definition) = .ok t
    else ∀ line ∈ g.lines c.definition, Json.Writes Json.strict 3 line
  nodeCount : IsShown (.int g.nodes.length)
  edgeCount : IsShown (.int g.edges.length)

theorem graphWritten_iff {format : String} {c : Catalog} {g : Graph Component} :
    GraphWritten format c g ↔
      (if format = yamlFormat then ∃ t, Yaml.sightAll 4 ⟨[], []⟩ (g.lines c.definition) = .ok t
        else ∀ line ∈ g.lines c.definition, Json.Writes Json.strict 3 line) ∧
      IsShown (.int g.nodes.length) ∧ IsShown (.int g.edges.length) :=
  ⟨fun h => ⟨h.lines, h.nodeCount, h.edgeCount⟩, fun ⟨hlines, hnodes, hedges⟩ =>
    ⟨hlines, hnodes, hedges⟩⟩

/-- What a command needs to answer. Only the lines of a graph come from the catalog as they are. -/
def Answerable (format : String) (c : Catalog) (root : Option Component) : Call → Prop
  | .resolve _ written _ => written.isSome
  | .graph _ drawing =>
    drawing = dotFormat ∨ GraphWritten format c (Graph.build c.index standardLinks root)
  | _ => True

/-- Numbers and texts are no obstacle in a line, and neither is what is missing. -/
theorem graphWritten_of_plain {height : Nat} (hroom : height ≤ 300) (format : String) {c : Catalog}
    {g : Graph Component} (hlines : ∀ line ∈ g.lines c.definition, Plain height line)
    (hnodes : IsShown (.int g.nodes.length)) (hedges : IsShown (.int g.edges.length)) :
    GraphWritten format c g := by
  refine ⟨?_, hnodes, hedges⟩
  split
  · exact ⟨_, Yaml.sightAll_eq_self fun line hline =>
      Yaml.sight_of_plain (hlines line hline) (by unfold Yaml.depthLimit; omega)⟩
  · exact fun line hline =>
      Json.writes_of_plain (hlines line hline) (by unfold Json.depthLimit; omega)

theorem plain_descriptorValue (d : Descriptor Component) : Plain 1 (Session.descriptorValue d) := by
  refine .record ?_
  simp only [List.forall_mem_cons]
  exact ⟨.text _ _, .text _ _, .optionalText _ _, .text _ _, .bool _ _, .bool _ _, nofun⟩

theorem plain_descriptorValue_getD (d : Option (Descriptor Component)) :
    Plain 1 ((d.map Session.descriptorValue).getD .null) := by
  cases d with
  | none => exact .null 1
  | some d => exact plain_descriptorValue d

namespace Session

variable {s : Session}

theorem exists_render_eq_ok_iff {v : Value} :
    (∃ text, s.render v = .ok text) ↔
      if s.format = yamlFormat then ∃ t, Yaml.sight 1 ⟨[], []⟩ v = .ok t
      else Json.Writes Json.strict 0 v := by
  unfold render
  split
  · rw [Yaml.render]
    cases Yaml.sight 1 ⟨[], []⟩ v with
    | error o => exact iff_of_false (not_exists_error_eq_ok _) (not_exists_error_eq_ok _)
    | ok t => exact iff_of_true ⟨_, rfl⟩ ⟨t, rfl⟩
  · rw [Json.Writes, Json.Layout.render]
    cases Json.write Json.strict [] 0 v with
    | ok text => exact iff_of_true ⟨_, rfl⟩ ⟨text, rfl⟩
    | error e =>
      cases e <;> exact iff_of_false (not_exists_error_eq_ok _) (not_exists_error_eq_ok _)

theorem exists_render_of_plain {height : Nat} {v : Value} (h : Plain height v)
    (hroom : height ≤ 300) : ∃ text, s.render v = .ok text := by
  rw [exists_render_eq_ok_iff]
  split
  · exact ⟨_, Yaml.sight_of_plain h (by unfold Yaml.depthLimit; omega)⟩
  · exact Json.writes_of_plain h (by unfold Json.depthLimit; omega)

theorem exists_render_graph_iff {c : Catalog} {g : Graph Component} :
    (∃ text, s.render (g.toValue c.definition) = .ok text) ↔ GraphWritten s.format c g := by
  rw [exists_render_eq_ok_iff, graphWritten_iff]
  by_cases hformat : s.format = yamlFormat
  · simp only [if_pos hformat]
    exact g.exists_sight_toValue_iff _
  · simp only [if_neg hformat]
    exact g.writes_toValue_iff _

theorem exists_emit_eq_ok_iff {code : Nat} {log : List LogRecord} {v : Value} :
    (∃ r, s.emit code log v = .ok r) ↔ ∃ text, s.render v = .ok text := by
  unfold emit
  cases s.render v with
  | error b => exact iff_of_false (not_exists_error_eq_ok _) (not_exists_error_eq_ok _)
  | ok text => exact iff_of_true ⟨_, rfl⟩ ⟨text, rfl⟩

theorem exists_emit_of_plain {code : Nat} {log : List LogRecord} {height : Nat} {v : Value}
    (h : Plain height v) (hroom : height ≤ 300) : ∃ r, s.emit code log v = .ok r :=
  exists_emit_eq_ok_iff.mpr (exists_render_of_plain h hroom)

theorem code_of_emit_eq_ok {code : Nat} {log : List LogRecord} {v : Value} {r : Report}
    (h : s.emit code log v = .ok r) : r.code = code := by
  unfold emit at h
  cases hrender : s.render v with
  | error b =>
    rw [hrender] at h
    cases h
  | ok text =>
    rw [hrender] at h
    cases h
    rfl

/-- A command on the catalog in terms of what it does with a component that is there. -/
structure RepliesBy (s : Session) (call : Call) (doing : String)
    (reply : Catalog → Option Component → Answer) : Prop where
  answer : ∀ files, s.answer files call = s.onCatalog files doing call.component? reply
  answered : ∀ c root, (∃ r, reply c root = .ok r) ↔ Answerable s.format c root call
  code : ∀ c root r, reply c root = .ok r → r.code = 0 ∨ r.code = 1

theorem exists_repliesBy {call : Call} {doing : String} (h : call.doing? = some doing) :
    ∃ reply, s.RepliesBy call doing reply := by
  cases call with
  | attrs component publicOnly inTemplate =>
    cases h
    refine ⟨_, fun files => rfl, fun c root => iff_of_true ?_ trivial, fun c root r hr => ?_⟩
    · exact exists_emit_of_plain
        (.pair (.text 2 _) (.items_map plain_descriptorValue _)) (by decide)
    · exact .inl (code_of_emit_eq_ok hr)
  | resolve component written publicOnly =>
    cases h
    refine ⟨_, fun files => rfl, fun c root => ?_, fun c root r hr => ?_⟩
    · cases written with
      | none => exact ⟨nofun, nofun⟩
      | some written =>
        refine iff_of_true (exists_emit_of_plain (?_ : Plain 2 _) (by decide)) rfl
        refine .record ?_
        simp only [List.forall_mem_cons]
        exact ⟨.text _ _, .text _ _, .bool _ _, plain_descriptorValue_getD _, nofun⟩
    · cases written with
      | none => cases hr
      | some written =>
        have hcode := code_of_emit_eq_ok hr
        split at hcode
        · exact .inl hcode
        · exact .inr hcode
  | locals component =>
    cases h
    refine ⟨_, fun files => rfl, fun c root => iff_of_true ?_ trivial, fun c root r hr => ?_⟩
    · exact exists_emit_of_plain (.pair (.text 2 _)
        (.items_map (fun _ => .pair (.text 0 _) (.optionalText 0 _)) _)) (by decide)
    · exact .inl (code_of_emit_eq_ok hr)
  | graph component drawing =>
    cases h
    refine ⟨_, fun files => rfl, fun c root => ?_, fun c root r hr => ?_⟩
    · dsimp only [Answerable]
      split
      · next hdot => exact iff_of_true ⟨_, rfl⟩ (.inl hdot)
      · next hdot =>
        rw [exists_emit_eq_ok_iff, or_iff_right hdot]
        exact exists_render_graph_iff
    · dsimp only at hr
      split at hr
      · cases hr
        exact .inl rfl
      · exact .inl (code_of_emit_eq_ok hr)
  | parse written => cases h

section

variable {files : Tree} {doing : String} {reply : Catalog → Option Component → Answer}

theorem loaded_eq_error_iff {e : LoadFailure} :
    s.loaded files = .error e ↔
      s.catalog = none ∧ Catalog.load files s.base s.catalogPath = .error e := by
  unfold loaded
  cases s.catalog with
  | some c => exact ⟨nofun, nofun⟩
  | none =>
    dsimp only
    cases Catalog.load files s.base s.catalogPath with
    | error e' => simp [bind, Except.bind]
    | ok c => exact ⟨nofun, nofun⟩

variable {call : Call} {c : Catalog} {later : Session} {log : List LogRecord}

theorem onCatalog_of_refused {e : FileError} (h : s.loaded files = .error (.refused e)) :
    (s.onCatalog files doing call.component? reply).2 = .ok (refusal doing e.message) := by
  rw [onCatalog, h]

theorem onCatalog_of_broken {b : Breakdown} (h : s.loaded files = .error (.broken b)) :
    (s.onCatalog files doing call.component? reply).2 = .error b := by
  rw [onCatalog, h]

theorem onCatalog_of_unknown (hloaded : s.loaded files = .ok (c, later, log))
    (hroot : call.root? c = none) : ∃ name, call.component? = some name ∧
      (s.onCatalog files doing call.component? reply).2 =
        .ok ((refusal doing (CatalogError.unknownComponent name).message).after log) := by
  unfold Call.root? at hroot
  cases hcomponent : call.component? with
  | none => simp [hcomponent] at hroot
  | some name =>
    rw [hcomponent, Option.map_eq_none_iff] at hroot
    refine ⟨name, rfl, ?_⟩
    simp only [onCatalog, hloaded, Catalog.require, hroot]
    rfl

theorem onCatalog_of_known (hloaded : s.loaded files = .ok (c, later, log))
    {root : Option Component} (hroot : call.root? c = some root) :
    (s.onCatalog files doing call.component? reply).2 = (reply c root).map (Report.after log) := by
  unfold Call.root? at hroot
  cases hcomponent : call.component? with
  | none =>
    rw [hcomponent] at hroot
    cases hroot
    simp only [onCatalog, hloaded]
  | some name =>
    rw [hcomponent] at hroot
    obtain ⟨d, hd, rfl⟩ := Option.map_eq_some_iff.mp hroot
    simp only [onCatalog, hloaded, Catalog.require, hd]
    rfl

/-- A refusal has code 1, and what is said on the way does not change a code. -/
theorem code_of_onCatalog (hcode : ∀ c root r, reply c root = .ok r → r.code = 0 ∨ r.code = 1)
    {r : Report} (hr : (s.onCatalog files doing call.component? reply).2 = .ok r) :
    r.code = 0 ∨ r.code = 1 := by
  cases hload : s.loaded files with
  | error e =>
    cases e with
    | refused e =>
      rw [onCatalog_of_refused hload] at hr
      cases hr
      exact .inr rfl
    | broken b =>
      rw [onCatalog_of_broken hload] at hr
      cases hr
  | ok loaded =>
    obtain ⟨c, later, log⟩ := loaded
    cases hroot : call.root? c with
    | none =>
      obtain ⟨name, -, hunknown⟩ := onCatalog_of_unknown hload hroot
      rw [hunknown] at hr
      cases hr
      exact .inr rfl
    | some root =>
      rw [onCatalog_of_known hload hroot] at hr
      cases hreplied : reply c root with
      | error b =>
        rw [hreplied] at hr
        cases hr
      | ok r' =>
        rw [hreplied] at hr
        cases hr
        exact hcode c root r' hreplied

end

/-- **Nothing else breaks a command down.** A command on the catalog ends with code 0 or 1, unless
it breaks down. A catalog that is refused and a component that is unknown are answered with code 1,
no output and a message. Only what is unreadable breaks a command down before there is a catalog;
with a catalog and a component that is there, a command answers if and only if its answer can be
given. The answer is plain text: that a stream of strict UTF-8 does not take a drawn name with a
half of a pair in it is left out here. -/
theorem answers_unless_broken (s : Session) (files : Tree) {call : Call} {doing : String}
    (h : call.doing? = some doing) :
    let answer := (s.answer files call).2
    let apology (message : String) : Notice := .message ("Error " ++ doing ++ ": " ++ message)
    (∀ r, answer = .ok r → r.code = 0 ∨ r.code = 1) ∧
    (∀ e, s.loaded files = .error (.refused e) → answer = .ok ⟨1, "", [apology e.message]⟩) ∧
    (∀ b, s.loaded files = .error (.broken b) →
      answer = .error b ∧ Unreadable files s.base s.catalogPath b) ∧
    ∀ c later log, s.loaded files = .ok (c, later, log) →
      (call.root? c = none → ∃ name, call.component? = some name ∧
        answer = .ok ⟨1, "", log.map .log ++ [apology ("Unknown component: " ++ name)]⟩) ∧
      ∀ root, call.root? c = some root →
        ((∃ r, answer = .ok r) ↔ Answerable s.format c root call) := by
  intro answer apology
  obtain ⟨reply, hreply⟩ := s.exists_repliesBy h
  have hanswer : answer = (s.onCatalog files doing call.component? reply).2 :=
    congrArg Prod.snd (hreply.answer files)
  rw [hanswer]
  refine ⟨fun r hr => code_of_onCatalog hreply.code hr, fun e he => onCatalog_of_refused he,
    fun b hb => ⟨onCatalog_of_broken hb, ?_⟩,
    fun c later log hloaded => ⟨onCatalog_of_unknown hloaded, fun root hroot => ?_⟩⟩
  · exact unreadable_of_load (loaded_eq_error_iff.mp hb).2
  · rw [onCatalog_of_known hloaded hroot, ← hreply.answered]
    cases reply c root with
    | error b => exact iff_of_false (not_exists_error_eq_ok _) (not_exists_error_eq_ok _)
    | ok r => exact iff_of_true ⟨_, rfl⟩ ⟨r, rfl⟩

/-- The line of the only component is a date. -/
def datedCatalog : Tree :=
  ⟨[([standardCatalog], .file "components:\n  box:\n    line: 2001-12-14\n".toUTF8)]⟩

def plainSession : Session := ⟨[], ⟨catalogPlace, []⟩, catalogPlace, jsonFormat, none⟩

theorem locals_answers_on_datedCatalog :
    ∃ r, (plainSession.answer datedCatalog (.locals "box")).2 = .ok r := by
  have hknown : ((plainSession.loaded datedCatalog).toOption.bind fun loaded =>
      Call.root? (.locals "box") loaded.1).isSome := by
    decide +kernel
  have hanswers := answers_unless_broken plainSession datedCatalog
    (rfl : Call.doing? (.locals "box") = some _)
  cases hloaded : plainSession.loaded datedCatalog with
  | error e =>
    rw [hloaded] at hknown
    cases hknown
  | ok loaded =>
    obtain ⟨c, later, log⟩ := loaded
    rw [hloaded] at hknown
    obtain ⟨root, hroot⟩ := Option.isSome_iff_exists.mp hknown
    exact ((hanswers.2.2.2 c later log hloaded).2 root hroot).mpr trivial

/-- A date has no JSON form, and no message is made of that. -/
theorem graph_breaks_down_on_datedCatalog :
    ¬ ∃ r, (plainSession.answer datedCatalog (.graph (some "box") jsonFormat)).2 = .ok r := by
  rintro ⟨r, hr⟩
  have hbroken :
      (plainSession.answer datedCatalog (.graph (some "box") jsonFormat)).2.isOk = false := by
    decide +kernel
  rw [hr] at hbroken
  cases hbroken

end Session

end ComponentAttrs.Command
