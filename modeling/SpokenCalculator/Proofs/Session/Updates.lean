import SpokenCalculator.Proofs.Session.Calculation

/-!
# What is to be kept among the preferences

The history is to be kept after every change of it, and the settings after every switch of one.
Both are told here from what is entered, without regard to what becomes of the preferences.

* `Update`: the entries after a change of the history, or the settings after a switch;
* `Session.moveUpdates`, `Session.updates`, `Session.updatesAll`: the updates of moves and actions,
  in their order;
* `Session.made`, `Session.madeAll`: the moves that actions make;
* `Session.replies`, `Session.Unbroken`: the replies to actions, none of which is that a document
  broke off;
* `Session.Respects`, `Respects.performAll`: what moves respect, any number of actions do.
-/

namespace SpokenCalculator

/-- What is to be kept: the entries after a change of the history, or the settings after a
switch. -/
inductive Update
  | history (entries : List Codes)
  | settings (settings : Settings)
  deriving DecidableEq

namespace Session

/-! ### Moves -/

/-- The updates of effects: the entries after each addition to a history. -/
def updatesOf (log : History.Log) : List Editor.Effect → List Update
  | [] => []
  | .record entry :: es =>
    .history (log.change (.add entry)).entries :: updatesOf (log.change (.add entry)) es
  | _ :: es => updatesOf log es

/-- The updates of a move; a command that is refused has none. -/
def moveUpdates (s : Session) : Move → List Update
  | .command c =>
    match Editor.press s.settings.learning s.editor c with
    | .ok o => updatesOf s.history o.2
    | .error _ => []
  | .clear => [.history []]
  | .toggleVoice => [.settings s.toggleVoice.1.settings]
  | .toggleTouch => [.settings s.toggleTouch.1.settings]
  | .toggleLearning => [.settings s.toggleLearning.1.settings]
  | .notify _ | .greet | .showHistory | .farewell | .speak _ | .stop | .speed _ | .pump _ => []

/-- The updates of moves in order, up to the first that fails. -/
def movesUpdates (s : Session) : List Move → List Update
  | [] => []
  | m :: ms =>
    s.moveUpdates m ++
      match s.move m with
      | (s, .ok ()) => s.movesUpdates ms
      | (_, .error _) => []

theorem movesUpdates_singleton (s : Session) (m : Move) :
    s.movesUpdates [m] = s.moveUpdates m := by
  rw [movesUpdates]
  rcases s.move m with ⟨s', e | _⟩ <;> exact List.append_nil _

/-- The moves that are made, up to the first that fails. -/
def made (s : Session) : List Move → List Move
  | [] => []
  | m :: ms =>
    m ::
      match s.move m with
      | (s, .ok ()) => s.made ms
      | (_, .error _) => []

/-! ### Actions -/

/-- The updates of an action. -/
def updates (s : Session) (a : Action) : List Update := s.movesUpdates a.moves

/-- The updates of actions one after another. -/
def updatesAll (s : Session) : List Action → List Update
  | [] => []
  | a :: as => s.updates a ++ (s.perform a).1.updatesAll as

/-- The moves that actions make one after another. -/
def madeAll (s : Session) : List Action → List Move
  | [] => []
  | a :: as => s.made a.moves ++ (s.perform a).1.madeAll as

/-- The replies to actions one after another. -/
def replies (s : Session) : List Action → List Reply
  | [] => []
  | a :: as => (s.perform a).2 :: (s.perform a).1.replies as

/-- No document breaks off where it is written. -/
def Unbroken (s : Session) (as : List Action) : Prop := ∀ r ∈ s.replies as, ¬ r.IsBroken

theorem unbroken_cons_iff {s : Session} {a : Action} {as : List Action} :
    s.Unbroken (a :: as) ↔ ¬ (s.perform a).2.IsBroken ∧ (s.perform a).1.Unbroken as := by
  rw [Unbroken, replies, List.forall_mem_cons]
  rfl

/-! ### Relations along actions -/

/-- A move that is refused is a command, and leaves the session as it is. -/
theorem of_move_refused {s s' : Session} {m : Move} {e : Editor.EditError}
    (h : s.move m = (s', .error (.edit e))) : s' = s ∧ s.moveUpdates m = [] := by
  cases s.move_cases m with
  | refused hmove hr =>
    refine ⟨congrArg Prod.fst (h.symm.trans hr), ?_⟩
    cases m with
    | command c =>
      have hpress := s.calculation.press_eq s.settings.learning c
      rw [Calculation.move] at hmove
      rcases ho : Editor.press s.settings.learning s.editor c with e' | o
      · rw [moveUpdates, ho]
      · rw [hmove, calculation, ho] at hpress
        cases hpress
    | _ => cases hmove
  | made hmove _ hresult =>
    rw [h] at hresult
    rcases hresult with hok | ⟨e', he⟩
    · cases hok
    · cases he

/-- A relation of a session before and after, with the updates in between.  It holds after some of
the moves, and goes on where it holds again. -/
structure Respects (P : Move → Prop) (R : Session → List Update → Session → Prop) : Prop where
  refl (s : Session) : R s [] s
  trans {s s' s'' : Session} {us us' : List Update} (h : R s us s') (h' : R s' us' s'') :
    R s (us ++ us') s''
  move {s s' : Session} {m : Move} (hm : P m) (h : s.move m = (s', .ok ())) :
    R s (s.moveUpdates m) s'

namespace Respects

variable {P : Move → Prop} {R : Session → List Update → Session → Prop} (hR : Respects P R)
  {s : Session}
include hR

/-- Moves in order respect what each of them does, unless a document breaks off. -/
theorem moveAll {ms : List Move} (hms : ∀ m ∈ s.made ms, P m) (h : ¬ (s.moveAll ms).IsBroken) :
    R s (s.movesUpdates ms) (s.moveAll ms).1 := by
  induction ms generalizing s with
  | nil => exact hR.refl s
  | cons m ms ih =>
    rw [made, List.forall_mem_cons] at hms
    rw [movesUpdates]
    rcases hm : s.move m with ⟨s', (e | e) | _⟩
    · obtain ⟨rfl, hnone⟩ := of_move_refused hm
      rw [moveAll_cons_of_error hm, hnone]
      exact hR.refl s'
    · rw [moveAll_cons_of_error hm] at h
      exact absurd ⟨e, rfl⟩ h
    · rw [hm] at hms
      rw [moveAll_cons_of_ok hm] at h ⊢
      exact hR.trans (hR.move hms.1 hm) (ih hms.2 h)

/-- **Any number of actions respect what their moves do**, unless a document breaks off. -/
theorem performAll {as : List Action} (has : ∀ m ∈ s.madeAll as, P m) (h : s.Unbroken as) :
    R s (s.updatesAll as) (s.performAll as) := by
  induction as generalizing s with
  | nil => exact hR.refl s
  | cons a as ih =>
    rw [madeAll, List.forall_mem_append] at has
    obtain ⟨hfirst, hrest⟩ := unbroken_cons_iff.1 h
    rw [isBroken_perform_iff] at hfirst
    have haction := hR.moveAll has.1 hfirst
    rw [← (s.perform_eq_moveAll a).1] at haction
    exact hR.trans haction (ih has.2 hrest)

end Respects

end Session

end SpokenCalculator
