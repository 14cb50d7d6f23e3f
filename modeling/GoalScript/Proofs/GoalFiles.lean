import GoalScript.Goal.File
import GoalScript.Proofs.Records

namespace GoalScript

open Json Fields

theorem bind_of_eq {α β : Type} {o : Option α} {f : α → Option β} {a : α} {r : Option β}
    (one : o = some a) (rest : f a = r) : (o >>= f) = r := by
  rw [one]
  exact rest

namespace GoalCall

def entries (call : GoalCall) : List (String × Option Json) :=
  [("name", some (.text call.name)), ("parameters", some (.object call.parameters))]

structure Valid (call : GoalCall) : Prop where
  sorted : Table.Sorted call.parameters
  normal : ∀ entry ∈ call.parameters, entry.2.normal = entry.2

theorem distinct (call : GoalCall) : (call.entries.map Prod.fst).Nodup := by
  simp [entries]

theorem toJson_eq (call : GoalCall) : call.toJson = .object (written call.entries) := rfl

theorem form : Form toJson ofJson? Valid where
  back call valid := by
    have parameters := And.intro valid.sorted valid.normal
    rw [toJson_eq, ofJson?]
    refine bind_of_eq (fields?_written call.distinct _) ?_
    refine bind_of_eq (required_written form_text call.distinct 0 rfl trivial) ?_
    refine bind_of_eq (defaulted_written form_table call.distinct 1 rfl parameters) ?_
    rfl
  valid_of_read json call h := by
    simp only [ofJson?, Option.bind_eq_bind, Option.bind_eq_some_iff] at h
    obtain ⟨f, -, name, -, parameters, listed, ⟨⟩⟩ := h
    have valid := valid_of_defaulted form_table ⟨Table.sorted_nil, List.forall_mem_nil _⟩ listed
    exact ⟨valid.1, valid.2⟩

end GoalCall

namespace Injection

def entries (i : Injection) : List (String × Option Json) :=
  [("module_type", some (.text i.moduleType)), ("implementation", some (.text i.implementation))]

theorem distinct (i : Injection) : (i.entries.map Prod.fst).Nodup := by
  simp [entries]

theorem toJson_eq (i : Injection) : i.toJson = .object (written i.entries) := rfl

theorem form : Form toJson ofJson? fun _ => True where
  back i _ := by
    rw [toJson_eq, ofJson?]
    refine bind_of_eq (fields?_written i.distinct _) ?_
    refine bind_of_eq (required_written form_text i.distinct 0 rfl trivial) ?_
    refine bind_of_eq (required_written form_text i.distinct 1 rfl trivial) ?_
    rfl
  valid_of_read _ _ _ := trivial

end Injection

namespace Parameter

def entries (p : Parameter) : List (String × Option Json) :=
  [("name", some (.text p.name)), ("value", some p.value)]

structure Valid (p : Parameter) : Prop where
  normal : p.value.normal = p.value

theorem distinct (p : Parameter) : (p.entries.map Prod.fst).Nodup := by
  simp [entries]

theorem toJson_eq (p : Parameter) : p.toJson = .object (written p.entries) := rfl

theorem form : Form toJson ofJson? Valid where
  back p valid := by
    rw [toJson_eq, ofJson?]
    refine bind_of_eq (fields?_written p.distinct _) ?_
    refine bind_of_eq (required_written form_text p.distinct 0 rfl trivial) ?_
    refine bind_of_eq (required_written form_data p.distinct 1 rfl valid.normal) ?_
    rfl
  valid_of_read json p h := by
    simp only [ofJson?, Option.bind_eq_bind, Option.bind_eq_some_iff] at h
    obtain ⟨f, -, name, -, value, given, ⟨⟩⟩ := h
    have normal := valid_of_required form_data given
    exact ⟨normal⟩

end Parameter

namespace Instruction

def entries (i : Instruction) : List (String × Option Json) :=
  [("function", some (.text i.function)),
    ("parameters", some (.array (i.parameters.map Parameter.toJson))),
    ("return_variable", i.returnVariable.map .text)]

structure Valid (i : Instruction) : Prop where
  parameters : ∀ p ∈ i.parameters, p.Valid

theorem distinct (i : Instruction) : (i.entries.map Prod.fst).Nodup := by
  simp [entries]

theorem toJson_eq (i : Instruction) : i.toJson = .object (written i.entries) := by
  simp [toJson, entries, written_cons, written_nil, present]

theorem form : Form toJson ofJson? Valid where
  back i valid := by
    have listed := Parameter.form.list
    rw [toJson_eq, ofJson?]
    refine bind_of_eq (fields?_written i.distinct _) ?_
    refine bind_of_eq (required_written form_text i.distinct 0 rfl trivial) ?_
    refine bind_of_eq (defaulted_written listed i.distinct 1 rfl valid.parameters) ?_
    refine bind_of_eq (optional_written form_text nofun i.distinct 2 rfl (fun _ _ => trivial)) ?_
    rfl
  valid_of_read json i h := by
    simp only [ofJson?, Option.bind_eq_bind, Option.bind_eq_some_iff] at h
    obtain ⟨f, -, function, -, parameters, listed, target, -, ⟨⟩⟩ := h
    exact ⟨valid_of_defaulted Parameter.form.list (List.forall_mem_nil _) listed⟩

end Instruction

namespace RetryPolicy

def entries (r : RetryPolicy) : List (String × Option Json) :=
  [("count", some (.ofNat r.count)), ("delay_ms", some (.ofNat r.delay))]

structure Valid (r : RetryPolicy) : Prop where
  count : r.count < Number.word32
  delay : r.delay < Number.word64

theorem distinct (r : RetryPolicy) : (r.entries.map Prod.fst).Nodup := by
  simp [entries]

theorem toJson_eq (r : RetryPolicy) : r.toJson = .object (written r.entries) := rfl

theorem form : Form toJson ofJson? Valid where
  back r valid := by
    rw [toJson_eq, ofJson?]
    refine bind_of_eq (fields?_written r.distinct _) ?_
    refine bind_of_eq (required_written (form_nat _) r.distinct 0 rfl valid.count) ?_
    refine bind_of_eq (defaulted_written (form_nat _) r.distinct 1 rfl valid.delay) ?_
    rfl
  valid_of_read json r h := by
    simp only [ofJson?, Option.bind_eq_bind, Option.bind_eq_some_iff] at h
    obtain ⟨f, -, count, counted, delay, delayed, ⟨⟩⟩ := h
    have count := valid_of_required (form_nat _) counted
    have delay := valid_of_defaulted (form_nat _) (by decide) delayed
    exact ⟨count, delay⟩

end RetryPolicy

namespace ErrorHandler

def entries (h : ErrorHandler) : List (String × Option Json) :=
  [("message", h.message.map .text), ("key", h.key.map .text),
    ("status_code", h.statusCode.map .ofNat), ("ignore_error", some (.bool h.ignoreError)),
    ("goal_to_call", h.goalToCall.map GoalCall.toJson), ("retry", h.retry.map RetryPolicy.toJson),
    ("retry_before_goal", some (.bool h.retryBeforeGoal))]

structure Valid (h : ErrorHandler) : Prop where
  statusCode : ∀ n ∈ h.statusCode, n < Number.word16
  goalToCall : ∀ call ∈ h.goalToCall, call.Valid
  retry : ∀ r ∈ h.retry, r.Valid

theorem distinct (h : ErrorHandler) : (h.entries.map Prod.fst).Nodup := by
  simp [entries]

theorem toJson_eq (h : ErrorHandler) : h.toJson = .object (written h.entries) := by
  simp [toJson, entries, written_cons, written_nil, present]

theorem form : Form toJson ofJson? Valid where
  back h valid := by
    have calls := optional_written GoalCall.form nofun h.distinct 4 rfl valid.goalToCall
    have retries := optional_written RetryPolicy.form nofun h.distinct 5 rfl valid.retry
    rw [toJson_eq, ofJson?]
    refine bind_of_eq (fields?_written h.distinct _) ?_
    refine bind_of_eq (optional_written form_text nofun h.distinct 0 rfl (fun _ _ => trivial)) ?_
    refine bind_of_eq (optional_written form_text nofun h.distinct 1 rfl (fun _ _ => trivial)) ?_
    refine bind_of_eq (optional_written (form_nat _) nofun h.distinct 2 rfl valid.statusCode) ?_
    refine bind_of_eq (defaulted_written form_bool h.distinct 3 rfl trivial) ?_
    refine bind_of_eq calls (bind_of_eq retries ?_)
    refine bind_of_eq (defaulted_written form_bool h.distinct 6 rfl trivial) ?_
    rfl
  valid_of_read json handler h := by
    simp only [ofJson?, Option.bind_eq_bind, Option.bind_eq_some_iff] at h
    obtain ⟨f, -, message, -, key, -, code, coded, ignore, -, call, called, retry, retried,
      before, -, ⟨⟩⟩ := h
    exact ⟨valid_of_optional (form_nat _) coded, valid_of_optional GoalCall.form called,
      valid_of_optional RetryPolicy.form retried⟩

end ErrorHandler

namespace Cancellation

def entries (c : Cancellation) : List (String × Option Json) :=
  [("timeout_ms", c.timeout.map .ofNat), ("goal_to_call", c.goalToCall.map GoalCall.toJson)]

structure Valid (c : Cancellation) : Prop where
  timeout : ∀ n ∈ c.timeout, n < Number.word64
  goalToCall : ∀ call ∈ c.goalToCall, call.Valid

theorem distinct (c : Cancellation) : (c.entries.map Prod.fst).Nodup := by
  simp [entries]

theorem toJson_eq (c : Cancellation) : c.toJson = .object (written c.entries) := by
  simp [toJson, entries, written_cons, written_nil]

theorem form : Form toJson ofJson? Valid where
  back c valid := by
    rw [toJson_eq, ofJson?]
    refine bind_of_eq (fields?_written c.distinct _) ?_
    refine bind_of_eq (optional_written (form_nat _) nofun c.distinct 0 rfl valid.timeout) ?_
    refine bind_of_eq (optional_written GoalCall.form nofun c.distinct 1 rfl valid.goalToCall) ?_
    rfl
  valid_of_read json c h := by
    simp only [ofJson?, Option.bind_eq_bind, Option.bind_eq_some_iff] at h
    obtain ⟨f, -, timeout, timed, call, called, ⟨⟩⟩ := h
    exact ⟨valid_of_optional (form_nat _) timed, valid_of_optional GoalCall.form called⟩

end Cancellation

namespace Step

def entries (s : Step) : List (String × Option Json) :=
  [("index", some (.ofNat s.index)), ("text", some (.text s.text)),
    ("module_type", some (.text s.moduleType)), ("instruction", some s.instruction.toJson),
    ("comment", s.comment.map .text), ("run_once", some (.bool s.runOnce)),
    ("disabled", some (.bool s.disabled)),
    ("error_handlers", unlessEmpty (s.errorHandlers.map ErrorHandler.toJson)),
    ("cancellation", s.cancellation.map Cancellation.toJson), ("indent", some (.ofNat s.indent))]

structure Valid (s : Step) : Prop where
  index : s.index < Number.word64
  instruction : s.instruction.Valid
  errorHandlers : ∀ h ∈ s.errorHandlers, h.Valid
  cancellation : ∀ c ∈ s.cancellation, c.Valid
  indent : s.indent < Number.word64

theorem distinct (s : Step) : (s.entries.map Prod.fst).Nodup := by
  simp [entries]

theorem toJson_eq (s : Step) : s.toJson = .object (written s.entries) := by
  simp [toJson, entries, written_cons, written_nil, present, nonempty_eq]

theorem form : Form toJson ofJson? Valid where
  back s valid := by
    have cancels := optional_written Cancellation.form nofun s.distinct 8 rfl valid.cancellation
    rw [toJson_eq, ofJson?]
    refine bind_of_eq (fields?_written s.distinct _) ?_
    refine bind_of_eq (defaulted_written (form_nat _) s.distinct 0 rfl valid.index) ?_
    refine bind_of_eq (defaulted_written form_text s.distinct 1 rfl trivial) ?_
    refine bind_of_eq (required_written form_text s.distinct 2 rfl trivial) ?_
    refine bind_of_eq (required_written Instruction.form s.distinct 3 rfl valid.instruction) ?_
    refine bind_of_eq (optional_written form_text nofun s.distinct 4 rfl (fun _ _ => trivial)) ?_
    refine bind_of_eq (defaulted_written form_bool s.distinct 5 rfl trivial) ?_
    refine bind_of_eq (defaulted_written form_bool s.distinct 6 rfl trivial) ?_
    refine bind_of_eq (items_written ErrorHandler.form s.distinct 7 rfl valid.errorHandlers) ?_
    refine bind_of_eq cancels ?_
    refine bind_of_eq (defaulted_written (form_nat _) s.distinct 9 rfl valid.indent) ?_
    rfl
  valid_of_read json s h := by
    simp only [ofJson?, Option.bind_eq_bind, Option.bind_eq_some_iff] at h
    obtain ⟨f, -, index, indexed, text, -, module, -, instruction, instructed, comment, -, once, -,
      disabled, -, handlers, handled, cancellation, cancelled, indent, indented, ⟨⟩⟩ := h
    have index := valid_of_defaulted (form_nat _) (by decide) indexed
    have indent := valid_of_defaulted (form_nat _) (by decide) indented
    exact {
      index
      instruction := valid_of_required Instruction.form instructed
      errorHandlers := valid_of_defaulted ErrorHandler.form.list (List.forall_mem_nil _) handled
      cancellation := valid_of_optional Cancellation.form cancelled
      indent }

end Step

namespace Goal

def entries (g : Goal) : List (String × Option Json) :=
  [("name", some (.text g.name)), ("steps", some (.array (g.steps.map Step.toJson))),
    ("parent_goal", g.parentGoal.map .text), ("comment", g.comment.map .text),
    ("path", some (.text g.path)), ("is_setup", some (.bool g.isSetup)),
    ("injections", unlessEmpty (g.injections.map Injection.toJson))]

structure Valid (g : Goal) : Prop where
  steps : ∀ s ∈ g.steps, s.Valid

theorem distinct (g : Goal) : (g.entries.map Prod.fst).Nodup := by
  simp [entries]

theorem toJson_eq (g : Goal) : g.toJson = .object (written g.entries) := by
  simp [toJson, entries, written_cons, written_nil, present, nonempty_eq]

theorem form : Form toJson ofJson? Valid where
  back g valid := by
    have injects := items_written Injection.form g.distinct 6 rfl fun _ _ => trivial
    rw [toJson_eq, ofJson?]
    refine bind_of_eq (fields?_written g.distinct _) ?_
    refine bind_of_eq (required_written form_text g.distinct 0 rfl trivial) ?_
    refine bind_of_eq (defaulted_written Step.form.list g.distinct 1 rfl valid.steps) ?_
    refine bind_of_eq (optional_written form_text nofun g.distinct 2 rfl (fun _ _ => trivial)) ?_
    refine bind_of_eq (optional_written form_text nofun g.distinct 3 rfl (fun _ _ => trivial)) ?_
    refine bind_of_eq (defaulted_written form_text g.distinct 4 rfl trivial) ?_
    refine bind_of_eq (defaulted_written form_bool g.distinct 5 rfl trivial) ?_
    refine bind_of_eq injects ?_
    rfl
  valid_of_read json g h := by
    simp only [ofJson?, Option.bind_eq_bind, Option.bind_eq_some_iff] at h
    obtain ⟨f, -, name, -, steps, listed, parent, -, comment, -, path, -, setup, -,
      injections, -, ⟨⟩⟩ := h
    exact ⟨valid_of_defaulted Step.form.list (List.forall_mem_nil _) listed⟩

end Goal

theorem EventScope.ofWord?_word (scope : EventScope) :
    EventScope.ofWord? scope.word = some scope := by
  cases scope <;> decide

theorem EventType.ofWord?_word (type : EventType) : EventType.ofWord? type.word = some type := by
  cases type <;> decide

namespace EventBinding

def entries (b : EventBinding) : List (String × Option Json) :=
  [("scope", some (.text b.scope.word)), ("event_type", some (.text b.eventType.word)),
    ("goal_to_call", some b.goalToCall.toJson), ("goal_filter", b.goalFilter.map .text),
    ("step_filter", b.stepFilter.map .text), ("key_filter", b.keyFilter.map .text)]

structure Valid (b : EventBinding) : Prop where
  goalToCall : b.goalToCall.Valid

theorem distinct (b : EventBinding) : (b.entries.map Prod.fst).Nodup := by
  simp [entries]

theorem toJson_eq (b : EventBinding) : b.toJson = .object (written b.entries) := by
  simp [toJson, entries, written_cons, written_nil, present]

theorem form : Form toJson ofJson? Valid where
  back b valid := by
    have scope := form_word EventScope.ofWord?_word
    have type := form_word EventType.ofWord?_word
    rw [toJson_eq, ofJson?]
    refine bind_of_eq (fields?_written b.distinct _) ?_
    refine bind_of_eq (required_written scope b.distinct 0 rfl trivial) ?_
    refine bind_of_eq (required_written type b.distinct 1 rfl trivial) ?_
    refine bind_of_eq (required_written GoalCall.form b.distinct 2 rfl valid.goalToCall) ?_
    refine bind_of_eq (optional_written form_text nofun b.distinct 3 rfl (fun _ _ => trivial)) ?_
    refine bind_of_eq (optional_written form_text nofun b.distinct 4 rfl (fun _ _ => trivial)) ?_
    refine bind_of_eq (optional_written form_text nofun b.distinct 5 rfl (fun _ _ => trivial)) ?_
    rfl
  valid_of_read json b h := by
    simp only [ofJson?, Option.bind_eq_bind, Option.bind_eq_some_iff] at h
    obtain ⟨f, -, scope, -, type, -, call, called, goal, -, step, -, key, -, ⟨⟩⟩ := h
    exact ⟨valid_of_required GoalCall.form called⟩

end EventBinding

namespace LibraryFile

def entries (file : LibraryFile) : List (String × Option Json) :=
  [("goals", some (.array (file.goals.map Goal.toJson))),
    ("events", some (.array (file.events.map EventBinding.toJson))),
    ("default_goal", some ((file.defaultGoal.map .text).getD .null))]

/-- What a file can hold: numbers of as many bits as their fields have, and data of which no name
is repeated. -/
structure Valid (file : LibraryFile) : Prop where
  goals : ∀ g ∈ file.goals, g.Valid
  events : ∀ b ∈ file.events, b.Valid

theorem distinct (file : LibraryFile) : (file.entries.map Prod.fst).Nodup := by
  simp [entries]

theorem toJson_eq (file : LibraryFile) : file.toJson = .object (written file.entries) := rfl

theorem form : Form toJson ofJson? Valid where
  back file valid := by
    have bound := EventBinding.form.list
    rw [toJson_eq, ofJson?]
    refine bind_of_eq (fields?_written file.distinct _) ?_
    refine bind_of_eq (defaulted_written Goal.form.list file.distinct 0 rfl valid.goals) ?_
    refine bind_of_eq (defaulted_written bound file.distinct 1 rfl valid.events) ?_
    refine bind_of_eq (nullable_written form_text nofun file.distinct 2 rfl (fun _ _ => trivial)) ?_
    rfl
  valid_of_read json file h := by
    simp only [ofJson?, Option.bind_eq_bind, Option.bind_eq_some_iff] at h
    obtain ⟨f, -, goals, listed, events, bound, default, -, ⟨⟩⟩ := h
    exact ⟨valid_of_defaulted Goal.form.list (List.forall_mem_nil _) listed,
      valid_of_defaulted EventBinding.form.list (List.forall_mem_nil _) bound⟩

/-- Files that can be held at all are read back as they were written, and no others are read. -/
theorem files_survive_rewriting (file : LibraryFile) :
    (ofJson? file.toJson = some file ↔ file.Valid) ∧
      ∀ json, ofJson? json = some file → file.Valid :=
  ⟨form.read_write_iff, fun json => form.valid_of_read json file⟩

/-- A step with handlers and a cancellation that leave out most of their fields, and a binding with
one filter. -/
theorem files_survive_rewriting_sparse :
    let call : GoalCall := { name := "Sub", parameters := [("a", .array [.null, .int (-3)])] }
    let step : Step := {
      moduleType := "probe"
      instruction := { function := "echo", parameters := [⟨"value", .object [("x", .null)]⟩] }
      errorHandlers := [
        { statusCode := some 404, retry := some ⟨2, 0⟩ },
        { key := some "", goalToCall := some call }]
      cancellation := some {} }
    let file : LibraryFile := {
      goals := [{ name := "Main", steps := [step], parentGoal := some "" }, { name := "Sub" }]
      events := [{
        scope := .variable, eventType := .onChange, goalToCall := call, keyFilter := some "x*" }] }
    file.Valid ∧ ofJson? file.toJson = some file := by
  intro call step file
  have called : call.Valid := ⟨List.pairwise_singleton _ _, by simp [call, normal, normalItems]⟩
  have caught : ∀ h ∈ step.errorHandlers, h.Valid := by
    refine List.forall_mem_cons.mpr ⟨?_, List.forall_mem_singleton.mpr ?_⟩
    · exact ⟨by decide, nofun, by rintro r ⟨⟩; exact ⟨by decide, by decide⟩⟩
    · exact ⟨nofun, by rintro c ⟨⟩; exact called, nofun⟩
  have stepped : step.Valid := {
    index := by decide
    instruction := ⟨List.forall_mem_singleton.mpr ⟨rfl⟩⟩
    errorHandlers := caught
    cancellation := by rintro c ⟨⟩; exact ⟨nofun, nofun⟩
    indent := by decide }
  have valid : file.Valid := {
    goals := List.forall_mem_cons.mpr
      ⟨⟨List.forall_mem_singleton.mpr stepped⟩, List.forall_mem_singleton.mpr ⟨nofun⟩⟩
    events := List.forall_mem_singleton.mpr ⟨called⟩ }
  exact ⟨valid, (files_survive_rewriting file).1.mpr valid⟩

end LibraryFile

end GoalScript
