import GoalScript.Memory.Write

namespace GoalScript

structure Board.Entry where
  name : String
  isSet : Bool
  subscriptions : List Subscription

/-- The law of variable events, as a machine. It keeps of each variable whether it is set and who is
subscribed to it, but no values, and is told of each operation what it has come to. -/
@[ext]
structure Board where
  kept? : Scope → String → Option Board.Entry
  muted : Bool
  queue : List PendingEvent

inductive Deed where
  -- It has failed, or was about a setting.
  | nothing
  -- A variable has the value now: in the given scope, or else in the one where it is found.
  | write (scope : Option Scope) (name key : String) (value : Value)
  -- A variable has been removed.
  | erase (key : String)
  -- Something in a variable has been removed, and the value is what is left.
  | change (key : String) (value : Value)
  | subscribe (name key : String) (subscription : Subscription)
  | unsubscribe (key goalName : String) (type : Option EventType)
  | mute (muted : Bool)
  | take
  | reset

def Deed.Writes : Deed → Prop
  | .nothing => True
  | .write .. => True
  | .erase _ => True
  | .change .. => True
  | _ => False

/-- No two of the subscriptions are the same. -/
def Subscription.Distinct (subscriptions : List Subscription) : Prop :=
  subscriptions.Pairwise fun s t => s.sameAs t = false

/-- A new subscription takes the place of one that is the same. -/
theorem Subscription.Distinct.addTo {subscriptions : List Subscription} (h : Distinct subscriptions)
    (s : Subscription) : Distinct (s.addTo subscriptions) := by
  unfold Subscription.addTo
  refine List.pairwise_append.mpr ⟨List.Pairwise.filter _ h, List.pairwise_singleton _ _, ?_⟩
  intro t ht u hu
  obtain rfl := List.mem_singleton.mp hu
  simpa using (List.mem_filter.mp ht).2

namespace Board

variable {b : Board} {scope scope' : Scope} {key key' name : String} {e : Entry}

/-- Where a variable is found: among the stack's own, unless it is only shared. -/
def scopeOf (b : Board) (key : String) : Scope :=
  if (b.kept? .own key).isNone && (b.kept? .shared key).isSome then .shared else .own

def subscriptions (b : Board) (scope : Scope) (key : String) : List Subscription :=
  ((b.kept? scope key).map Entry.subscriptions).getD []

def isSet (b : Board) (scope : Scope) (key : String) : Bool := (b.kept? scope key).any Entry.isSet

def keep (b : Board) (scope : Scope) (key : String) (e : Entry) : Board :=
  { b with kept? := fun scope' key' =>
      if key' = key ∧ scope' = scope then some e else b.kept? scope' key' }

/-- One event for each subscription to what has happened, in the order of the subscriptions. -/
def notify (b : Board) (name : String) (subscriptions : List Subscription) (type : EventType)
    (value : Value) : Board :=
  if b.muted then b
  else
    let events := (subscriptions.filter fun s => s.eventType == type).map fun subscription =>
      { variableName := name, value, subscription : PendingEvent }
    { b with queue := b.queue ++ events }

/-- Does what an operation has come to, and hands out the events if they are taken. -/
def perform (b : Board) : Deed → List PendingEvent × Board
  | .nothing => ([], b)
  | .write scope name key value =>
    let scope := scope.getD (b.scopeOf key)
    let subscriptions := b.subscriptions scope key
    let type := if b.isSet scope key then EventType.onChange else EventType.onCreate
    ([], (b.notify name subscriptions type value).keep scope key
      { name, isSet := true, subscriptions })
  | .erase key =>
    let scope := b.scopeOf key
    match (b.kept? scope key).filter Entry.isSet with
    | none => ([], b)
    | some e => ([], (b.notify e.name e.subscriptions .onRemove .null).keep scope key
        { e with isSet := false })
  | .change key value =>
    let scope := b.scopeOf key
    match (b.kept? scope key).filter Entry.isSet with
    | none => ([], b)
    | some e => ([], b.notify e.name e.subscriptions .onChange value)
  | .subscribe name key subscription =>
    let scope := b.scopeOf key
    let e := (b.kept? scope key).getD { name, isSet := false, subscriptions := [] }
    ([], b.keep scope key { e with subscriptions := subscription.addTo e.subscriptions })
  | .unsubscribe key goalName type =>
    let scope := b.scopeOf key
    match b.kept? scope key with
    | none => ([], b)
    | some e => ([], b.keep scope key { e with subscriptions := e.subscriptions.filter fun s =>
        !(Text.sameName s.goalName goalName && (type.isNone || type == some s.eventType)) })
  | .mute muted => ([], { b with muted })
  | .take => (b.queue, { b with queue := [] })
  | .reset => ([], {
      kept? := fun scope key => if scope = .shared then b.kept? .shared key else none
      muted := false
      queue := [] })

def performAll : List Deed → Board → List (List PendingEvent) × Board
  | [], b => ([], b)
  | deed :: rest, b =>
    let (events, c) := b.perform deed
    let (later, d) := performAll rest c
    (events :: later, d)

@[simp]
theorem kept?_keep (b : Board) (scope scope' : Scope) (key key' : String) (e : Entry) :
    (b.keep scope key e).kept? scope' key' =
      if key' = key ∧ scope' = scope then some e else b.kept? scope' key' := rfl

theorem keep_self (h : b.kept? scope key = some e) : b.keep scope key e = b := by
  apply Board.ext
  · funext scope' key'
    rw [kept?_keep]
    split
    · rename_i here
      rw [here.1, here.2, h]
    · rfl
  · rfl
  · rfl

@[simp]
theorem kept?_notify (b : Board) (name : String) (subscriptions : List Subscription)
    (type : EventType) (value : Value) :
    (b.notify name subscriptions type value).kept? = b.kept? := by
  unfold notify
  split <;> rfl

@[simp]
theorem subscriptions_notify (b : Board) (name : String) (subscriptions : List Subscription)
    (type : EventType) (value : Value) :
    (b.notify name subscriptions type value).subscriptions = b.subscriptions := by
  funext scope key
  rw [Board.subscriptions, kept?_notify, Board.subscriptions]

theorem subscriptions_keep (b : Board) (scope scope' : Scope) (key key' : String) (e : Entry) :
    (b.keep scope key e).subscriptions scope' key' =
      if key' = key ∧ scope' = scope then e.subscriptions else b.subscriptions scope' key' := by
  rw [subscriptions, kept?_keep]
  split <;> rfl

theorem subscriptions_of_kept? (h : b.kept? scope key = some e) :
    b.subscriptions scope key = e.subscriptions := by
  rw [subscriptions, h]
  rfl

/-- Writes and removals leave all subscriptions as they are. -/
theorem subscriptions_perform {deed : Deed} (h : deed.Writes) (scope : Scope) (key : String) :
    (b.perform deed).2.subscriptions scope key = b.subscriptions scope key := by
  cases deed with
  | nothing => rfl
  | write scope' name key' value =>
    simp only [perform, subscriptions_keep, subscriptions_notify]
    split
    · rename_i here
      rw [here.1, here.2]
    · rfl
  | erase key' =>
    simp only [perform]
    split
    · rfl
    · rename_i e found
      have there := subscriptions_of_kept? (Option.filter_eq_some_iff.mp found).1
      simp only [subscriptions_keep, subscriptions_notify]
      split
      · rename_i here
        rw [here.1, here.2, there]
      · rfl
  | change key' value =>
    simp only [perform]
    split
    · rfl
    · simp only [subscriptions_notify]
  | _ => cases h

def Distinct (b : Board) : Prop :=
  ∀ scope key, Subscription.Distinct (b.subscriptions scope key)

theorem Distinct.keep (h : b.Distinct) (distinct : Subscription.Distinct e.subscriptions) :
    (b.keep scope key e).Distinct := by
  intro scope' key'
  rw [subscriptions_keep]
  split
  · exact distinct
  · exact h scope' key'

theorem Distinct.of_writes (h : b.Distinct) {deed : Deed} (writes : deed.Writes) :
    (b.perform deed).2.Distinct := by
  intro scope key
  rw [subscriptions_perform writes]
  exact h scope key

theorem Distinct.perform (h : b.Distinct) (deed : Deed) : (b.perform deed).2.Distinct := by
  cases deed with
  | subscribe name key subscription =>
    apply h.keep
    have before := h (b.scopeOf key) key
    unfold subscriptions at before
    cases found : b.kept? (b.scopeOf key) key with
    | none => exact Subscription.Distinct.addTo List.Pairwise.nil _
    | some e =>
      rw [found] at before
      exact before.addTo _
  | unsubscribe key goalName type =>
    simp only [Board.perform]
    split
    · exact h
    · rename_i e found
      have before := h (b.scopeOf key) key
      rw [subscriptions_of_kept? found] at before
      exact h.keep (before.filter _)
  | mute muted => exact h
  | take => exact h
  | reset =>
    intro scope key
    cases scope with
    | own => exact List.Pairwise.nil
    | shared => exact h .shared key
  | _ => exact h.of_writes trivial

/-- Whatever is done, no variable ever has two subscriptions that are the same. -/
theorem Distinct.performAll (h : b.Distinct) (deeds : List Deed) :
    (b.performAll deeds).2.Distinct := by
  induction deeds generalizing b with
  | nil => exact h
  | cons deed rest ih => exact ih (h.perform deed)

end Board

end GoalScript
