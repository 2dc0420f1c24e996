import WindowLayouts.History.Loading
import WindowLayouts.History.Lookup
import WindowLayouts.History.Recording

/- Runs of a store: operations one after the other on a store and its files, with all that was
   said. An operation that fails does not end a run. Looking up is no operation, because it changes
   nothing. Other stores may work on the same files between two runs, so a run starts from any store
   and any files.

     `Run.step`            what one operation does
     `Run.steps_append`    a run in two parts
     `Run.trace_step`      what was said before an operation stays in front
     `Run.sameLog_step`    an operation keeps to its log -/
namespace WindowLayouts

inductive Operation where
  | load (known : KnownLayouts)
  | select (now windowId : Int) (windowClass title layoutId : Text)
  | forget (windowId : Int)
  | compact
deriving Repr, DecidableEq

/-- A store at work: the store, the files, and what was said so far. -/
structure Run where
  store : Store
  files : FileTree
  trace : Trace

namespace Run

/-- A store with its files, before it said anything. -/
def start (s : Store) (files : FileTree) : Run := ⟨s, files, []⟩

/-- A run with the outcome of one more operation. -/
def after {α : Type} (r : Run) (o : Outcome α) : Run := ⟨o.store, o.files, r.trace ++ o.trace⟩

def step [StackRoom] (r : Run) : Operation → Run
  | .load known => r.after (r.store.load r.files known)
  | .select now windowId windowClass title layoutId =>
    r.after (r.store.select r.files now windowId windowClass title layoutId)
  | .forget windowId => { r with store := r.store.forget windowId }
  | .compact => r.after (r.store.compact r.files)

def steps [StackRoom] (r : Run) (operations : List Operation) : Run := operations.foldl step r

theorem steps_nil [StackRoom] (r : Run) : r.steps [] = r := rfl

theorem steps_cons [StackRoom] (r : Run) (o : Operation) (operations : List Operation) :
    r.steps (o :: operations) = (r.step o).steps operations := rfl

theorem steps_append [StackRoom] (r : Run) (first second : List Operation) :
    r.steps (first ++ second) = (r.steps first).steps second := List.foldl_append

/-- An operation only adds to what was said. -/
theorem trace_step [StackRoom] (r : Run) (o : Operation) :
    (r.step o).trace = r.trace ++ ((start r.store r.files).step o).trace := by
  cases o with
  | forget windowId => exact (List.append_nil r.trace).symm
  | _ => rfl

/-! ## What no operation changes -/

/-- The same log under the same limits, on the same bus or without one. -/
def SameLog (s t : Store) : Prop :=
  t.path = s.path ∧ t.threshold = s.threshold ∧ t.limit = s.limit ∧ t.onBus = s.onBus

theorem SameLog.refl (s : Store) : SameLog s s := ⟨rfl, rfl, rfl, rfl⟩

theorem SameLog.trans {s t u : Store} (h : SameLog s t) (h' : SameLog t u) : SameLog s u :=
  ⟨h'.1.trans h.1, h'.2.1.trans h.2.1, h'.2.2.1.trans h.2.2.1, h'.2.2.2.trans h.2.2.2⟩

theorem sameLog_compact [StackRoom] (s : Store) (files : FileTree) :
    SameLog s (s.compact files).store := by
  unfold Store.compact Store.compacted
  dsimp only
  split <;> exact ⟨rfl, rfl, rfl, rfl⟩

theorem sameLog_compactIfLong {α : Type} {compacting : Store → FileTree → Outcome Bool}
    (hsame : ∀ s files, SameLog s (compacting s files).store) {s : Store} {o : Outcome α}
    (h : SameLog s o.store) : SameLog s (Store.compactIfLong compacting o).store := by
  unfold Store.compactIfLong
  split
  · exact h.trans (hsame o.store o.files)
  · exact h

theorem sameLog_takeRead {compacting : Store → FileTree → Outcome Bool}
    (hsame : ∀ s files, SameLog s (compacting s files).store) (s : Store) (files : FileTree)
    (known : KnownLayouts) (read : Trace × Except LoadError (List Event)) :
    SameLog s (s.takeRead compacting files known read).store := by
  rcases read with ⟨said, reason | events⟩
  · exact ⟨rfl, rfl, rfl, rfl⟩
  · exact sameLog_compactIfLong hsame ⟨rfl, rfl, rfl, rfl⟩

theorem sameLog_loadIfThere {s : Store} {loaded : Outcome (Except FileFailure Unit)}
    (h : SameLog s loaded.store) (files : FileTree) (there : Except FileFailure Bool) :
    SameLog s (s.loadIfThere files there loaded).store := by
  unfold Store.loadIfThere
  split
  · exact ⟨rfl, rfl, rfl, rfl⟩
  · exact ⟨rfl, rfl, rfl, rfl⟩
  · exact h

theorem sameLog_load [StackRoom] (s : Store) (files : FileTree) (known : KnownLayouts) :
    SameLog s (s.load files known).store :=
  sameLog_loadIfThere (sameLog_takeRead sameLog_compact s files known _) files _

theorem sameLog_afterAppend (s : Store) (windowId : Int) (e : Event) (said : Trace)
    (appended : FileTree × Except FileFailure Unit) :
    SameLog s (s.afterAppend windowId e said appended).store := by
  unfold Store.afterAppend
  dsimp only
  split
  · exact ⟨rfl, rfl, rfl, rfl⟩
  · exact ⟨rfl, rfl, rfl, rfl⟩
  · split <;> exact ⟨rfl, rfl, rfl, rfl⟩

theorem sameLog_select [StackRoom] (s : Store) (files : FileTree) (now windowId : Int)
    (windowClass title layoutId : Text) :
    SameLog s (s.select files now windowId windowClass title layoutId).store := by
  unfold Store.select
  split
  · exact ⟨rfl, rfl, rfl, rfl⟩
  · exact sameLog_afterAppend _ _ _ _ _

theorem sameLog_step [StackRoom] (r : Run) (o : Operation) : SameLog r.store (r.step o).store := by
  cases o with
  | load known => exact sameLog_load r.store r.files known
  | select now windowId windowClass title layoutId =>
    exact sameLog_select r.store r.files now windowId windowClass title layoutId
  | forget windowId => exact ⟨rfl, rfl, rfl, rfl⟩
  | compact => exact sameLog_compact r.store r.files

theorem sameLog_steps [StackRoom] (r : Run) (operations : List Operation) :
    SameLog r.store (r.steps operations).store := by
  induction operations generalizing r with
  | nil => exact SameLog.refl r.store
  | cons o operations ih => exact (sameLog_step r o).trans (ih (r.step o))

end Run

end WindowLayouts
