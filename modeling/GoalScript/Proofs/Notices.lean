import GoalScript.Proofs.Board
import GoalScript.Proofs.Storage

namespace GoalScript

inductive Operation where
  | put (expr : String) (value : Value)
  | putShared (expr : String) (value : Value)
  | remove (expr : String)
  | subscribe (expr : String) (subscription : Subscription)
  | unsubscribe (expr goalName : String) (type : Option EventType)
  | setInEvent (inEvent : Bool)
  | takePending
  | reset

def Operation.Writes : Operation → Prop
  | .put .. => True
  | .putShared .. => True
  | .remove _ => True
  | _ => False

def Variable.entry (x : Variable) : Board.Entry :=
  { name := x.name, isSet := x.isSet, subscriptions := x.subscriptions }

namespace Store

variable {s t : Store} {expr key : String} {plan : Plan} {v : Value}

/-- What an operation hands out and what it makes of a stack. One that fails leaves it as it was. -/
def operate (s : Store) : Operation → List PendingEvent × Store
  | .put expr value => ([], (s.put expr value).toOption.getD s)
  | .putShared expr value => ([], (s.putShared expr value).toOption.getD s)
  | .remove expr => ([], (s.remove expr).toOption.getD s)
  | .subscribe expr subscription => ([], s.subscribe expr subscription)
  | .unsubscribe expr goalName type => ([], s.unsubscribe expr goalName type)
  | .setInEvent inEvent => ([], s.setInEvent inEvent)
  | .takePending => s.takePending
  | .reset => ([], s.reset)

def operateAll : List Operation → Store → List (List PendingEvent) × Store
  | [], s => ([], s)
  | operation :: rest, s =>
    let (events, t) := s.operate operation
    let (later, u) := operateAll rest t
    (events :: later, u)

def board (s : Store) : Board where
  kept? scope key := (s.inScope key scope).map Variable.entry
  muted := s.memory.inEvent
  queue := s.memory.pending

def valueOf (s : Store) (scope : Option Scope) (key : String) : Value :=
  let found := match scope with
    | some scope => s.inScope key scope
    | none => s.lookup? key
  (found.map Variable.value).getD .null

def deedOfWrite (scope : Option Scope) (expr : String) : Resolved Store → Deed
  | .error _ => .nothing
  | .ok t =>
    match Plan.parse expr with
    | .error _ => .nothing
    | .ok plan =>
      if plan.key = "settings" then .nothing
      else .write scope plan.root plan.key (t.valueOf scope plan.key)

def deedOfRemoval (expr : String) : Resolved Store → Deed
  | .error _ => .nothing
  | .ok t =>
    match Plan.parse expr with
    | .error _ => .nothing
    | .ok plan =>
      if plan.segments.isEmpty then .erase plan.key
      else .change plan.key (t.valueOf none plan.key)

def deed (s : Store) : Operation → Deed
  | .put expr value => deedOfWrite none expr (s.put expr value)
  | .putShared expr value => deedOfWrite (some .shared) expr (s.putShared expr value)
  | .remove expr => deedOfRemoval expr (s.remove expr)
  | .subscribe expr subscription =>
    .subscribe (rootOf expr).1 (rootOf expr).2 subscription
  | .unsubscribe expr goalName type => .unsubscribe (rootOf expr).2 goalName type
  | .setInEvent inEvent => .mute inEvent
  | .takePending => .take
  | .reset => .reset

def deeds : List Operation → Store → List Deed
  | [], _ => []
  | operation :: rest, s => s.deed operation :: deeds rest (s.operate operation).2

theorem kept?_board (s : Store) (scope : Scope) (key : String) :
    s.board.kept? scope key = (s.inScope key scope).map Variable.entry := rfl

@[simp]
theorem scopeOf_board (s : Store) (expr : String) :
    s.board.scopeOf (rootOf expr).2 = s.scopeOf expr := by
  rw [scopeOf_eq, Board.scopeOf, kept?_board, kept?_board, Option.isNone_map, Option.isSome_map]

theorem subscriptions_board (s : Store) (scope : Scope) (key : String) :
    s.board.subscriptions scope key = s.subscriptionsTo key scope := by
  rw [Board.subscriptions, kept?_board, Option.map_map]
  rfl

theorem writeEvent_board (s : Store) (scope : Scope) (key : String) :
    (if s.board.isSet scope key then EventType.onChange else EventType.onCreate) =
      s.writeEvent key scope := by
  rw [Board.isSet, kept?_board, writeEvent]
  cases s.inScope key scope with
  | none => rfl
  | some x =>
    cases set : x.isSet <;> simp [Variable.entry, Option.filter, set]

/-- Queueing events is what the board calls a notice. -/
theorem board_queue (s : Store) (x : Variable) (type : EventType) (value : Value) :
    (s.queue x type value).board = s.board.notify x.name x.subscriptions type value := by
  apply Board.ext
  · funext scope key
    rw [kept?_board, inScope_queue, Board.kept?_notify, kept?_board]
  · cases muted : s.memory.inEvent <;> simp [queue, Board.notify, board, muted]
  · cases muted : s.memory.inEvent <;> simp [queue, Board.notify, board, muted]

/-- Storing a variable is what the board calls keeping an entry. -/
theorem board_setInScope (s : Store) (key : String) (x : Variable) (scope : Scope) :
    (s.setInScope key x scope).board = s.board.keep scope key x.entry := by
  apply Board.ext
  · funext scope' key'
    rw [kept?_board, inScope_setInScope, Board.kept?_keep, kept?_board]
    split <;> rfl
  · cases scope <;> rfl
  · cases scope <;> rfl

/-- A write to a setting changes nothing that the board knows of. -/
theorem board_writeSetting (h : s.writeSetting plan v = .ok t) : t.board = s.board := by
  apply Board.ext
  · funext scope key
    rw [kept?_board, inScope_of_writeSetting h, kept?_board]
  all_goals
    unfold writeSetting at h
    split at h
    · cases h
      rfl
    · cases h

theorem scopeOf_board_of_parse (s : Store) (parsed : Plan.parse expr = .ok plan) :
    s.board.scopeOf plan.key = s.scopeOf expr := by
  rw [← scopeOf_board, rootOf_of_parse parsed]

/-- What has been stored where an expression is written is the value of its variable. -/
theorem valueOf_setInScope (s : Store) (parsed : Plan.parse expr = .ok plan) (scope : Option Scope)
    (x y : Variable) (type : EventType) (value : Value) :
    ((s.queue y type value).setInScope plan.key x (scope.getD (s.scopeOf expr))).valueOf scope
      plan.key = x.value := by
  cases scope with
  | some scope => simp [valueOf, inScope_setInScope]
  | none =>
    have found := s.lookup?_setInScope_scopeOf expr x y type value
    rw [rootOf_of_parse parsed] at found
    simp [valueOf, found]

/-- What a write stores is written on the board. -/
theorem perform_write (s : Store) (parsed : Plan.parse expr = .ok plan) (scope : Option Scope)
    (new : Value) :
    let used := scope.getD (s.scopeOf expr)
    s.board.perform (.write scope plan.root plan.key new) =
      ([], ((s.queue (s.written plan used new) (s.writeEvent plan.key used) new).setInScope
        plan.key (s.written plan used new) used).board) := by
  intro used
  rw [board_setInScope, board_queue, Board.perform, scopeOf_board_of_parse s parsed,
    writeEvent_board, subscriptions_board]
  rfl

/-- The board follows a write when it is told what the write has come to. -/
theorem perform_deedOfWrite (s : Store) (scope : Option Scope) (expr : String) (value : Value) :
    let r := s.writeTo expr value (scope.getD (s.scopeOf expr))
    s.board.perform (deedOfWrite scope expr r) = ([], (r.toOption.getD s).board) := by
  intro r
  cases h : r with
  | error e => rfl
  | ok t =>
    obtain ⟨plan, parsed, -, written⟩ := writeTo_cases h
    simp only [deedOfWrite, parsed]
    rcases written with ⟨settings, wrote⟩ | ⟨free, wrote⟩
    · rw [if_pos settings]
      simp [Board.perform, Except.toOption, board_writeSetting wrote]
    · rw [if_neg fun settings => free (.inr (.inr settings))]
      obtain ⟨places, new, -, -, rfl⟩ := writeVariable_cases wrote
      rw [valueOf_setInScope s parsed]
      exact s.perform_write parsed scope new

/-- A variable that is set has a set entry. -/
theorem filter_kept?_board (s : Store) (scope : Scope) (key : String) :
    (s.board.kept? scope key).filter Board.Entry.isSet =
      ((s.inScope key scope).filter Variable.isSet).map Variable.entry := by
  rw [kept?_board]
  cases s.inScope key scope with
  | none => rfl
  | some x => cases set : x.isSet <;> simp [Variable.entry, Option.filter, set]

/-- It follows a removal likewise. -/
theorem perform_deedOfRemoval (s : Store) (expr : String) :
    s.board.perform (deedOfRemoval expr (s.remove expr)) =
      ([], ((s.remove expr).toOption.getD s).board) := by
  cases h : s.remove expr with
  | error e => rfl
  | ok t =>
    obtain ⟨plan, parsed, removed⟩ := remove_cases h
    have here := scopeOf_board_of_parse s parsed
    have set := s.filter_kept?_board (s.scopeOf expr) plan.key
    simp only [deedOfRemoval, parsed, Except.toOption, Option.getD_some]
    rcases removed with ⟨absent, rfl⟩ | ⟨x, found, ⟨whole, rfl⟩ | ⟨inside, path, -, rfl⟩⟩
    · rw [absent] at set
      split <;> simp [Board.perform, here, set]
    · rw [found] at set
      simp only [whole, if_true, Board.perform, here, set, Option.map_some]
      rw [board_setInScope, board_queue]
      rfl
    · rw [found] at set
      generalize Value.removeAt path x.value = new
      have value := s.valueOf_setInScope parsed none
        { name := x.name, value := new, subscriptions := x.subscriptions } x .onChange new
      rw [Option.getD_none] at value
      simp only [inside, Bool.false_eq_true, if_false, value, Board.perform, here, set,
        Option.map_some]
      rw [board_setInScope, board_queue, Board.keep_self]
      · rfl
      · -- What was set before the removal is set after it.
        obtain ⟨kept, isSet⟩ := Option.filter_eq_some_iff.mp set
        have same : x.isSet = true := isSet
        rw [Board.kept?_notify, kept]
        simp [Variable.entry, same]

/-- The board does what the stack does. -/
theorem perform_deed (s : Store) (operation : Operation) :
    s.board.perform (s.deed operation) =
      ((s.operate operation).1, (s.operate operation).2.board) := by
  cases operation with
  | put expr value => exact perform_deedOfWrite s none expr value
  | putShared expr value => exact perform_deedOfWrite s (some .shared) expr value
  | remove expr => exact perform_deedOfRemoval s expr
  | subscribe expr subscription =>
    simp only [operate, deed, Board.perform, subscribe, board_setInScope, scopeOf_board]
    rw [kept?_board]
    cases s.inScope (rootOf expr).2 (s.scopeOf expr) <;> rfl
  | unsubscribe expr goalName type =>
    simp only [operate, deed, Board.perform, unsubscribe, scopeOf_board]
    rw [kept?_board]
    cases s.inScope (rootOf expr).2 (s.scopeOf expr) with
    | none => rfl
    | some x =>
      simp only [Option.map_some, board_setInScope]
      rfl
  | setInEvent inEvent => rfl
  | takePending => rfl
  | reset =>
    simp only [operate, deed, Board.perform]
    congr 1
    apply Board.ext
    · funext scope key
      cases scope <;> rfl
    · rfl
    · rfl

/-- The board does what the stack does, whatever is done in whatever order. -/
theorem performAll_deeds (s : Store) (operations : List Operation) :
    s.board.performAll (s.deeds operations) =
      ((s.operateAll operations).1, (s.operateAll operations).2.board) := by
  induction operations generalizing s with
  | nil => rfl
  | cons operation rest ih =>
    simp only [deeds, Board.performAll, operateAll, perform_deed, ih]

theorem writes_deed {operation : Operation} (h : operation.Writes) (s : Store) :
    (s.deed operation).Writes := by
  have write (scope : Option Scope) (expr : String) (r : Resolved Store) :
      (deedOfWrite scope expr r).Writes := by
    unfold deedOfWrite
    repeat' split
    all_goals trivial
  cases operation with
  | put expr value => exact write _ _ _
  | putShared expr value => exact write _ _ _
  | remove expr =>
    simp only [deed, deedOfRemoval]
    repeat' split
    all_goals trivial
  | _ => cases h

/-- Whatever is done with a stack, in whatever order: the events that it hands out are those that
the law gives, no variable ever has two subscriptions that are the same, and no write or removal
that comes next loses one. -/
theorem events_follow_the_law (s : Store) (operations : List Operation)
    (distinct : ∀ key scope, Subscription.Distinct (s.subscriptionsTo key scope)) :
    (s.operateAll operations).1 = (s.board.performAll (s.deeds operations)).1 ∧
      let t := (s.operateAll operations).2
      t.board = (s.board.performAll (s.deeds operations)).2 ∧
        (∀ key scope, Subscription.Distinct (t.subscriptionsTo key scope)) ∧
        ∀ operation : Operation, operation.Writes → ∀ key scope,
          (t.operate operation).2.subscriptionsTo key scope = t.subscriptionsTo key scope := by
  have law := s.performAll_deeds operations
  refine ⟨by rw [law], by rw [law], fun key scope => ?_, fun operation writes key scope => ?_⟩
  · have before : s.board.Distinct := fun scope key => by
      rw [subscriptions_board]
      exact distinct key scope
    have after := before.performAll (s.deeds operations) scope key
    rwa [law, subscriptions_board] at after
  · have kept := Board.subscriptions_perform (b := (s.operateAll operations).2.board)
      (writes_deed writes (s.operateAll operations).2) scope key
    rwa [perform_deed, subscriptions_board, subscriptions_board] at kept

/-- A variable is created once, and written a second time under another spelling. -/
theorem events_follow_the_law_created :
    let greet : Subscription := { eventType := .onCreate, goalName := "Greet" }
    let operations : List Operation := [.subscribe "x" greet, .put "x" (.bool true),
      .put "X" (.bool false), .takePending]
    (operateAll operations {}).1 = [[], [], [],
      [{ variableName := "x", value := .bool true, subscription := greet }]] := by
  intro greet operations
  have distinct (key : String) (scope : Scope) :
      Subscription.Distinct (subscriptionsTo {} key scope) := by
    cases scope <;> exact List.Pairwise.nil
  have law := events_follow_the_law {} operations distinct
  rw [law.1]
  with_unfolding_all rfl

end Store

end GoalScript
