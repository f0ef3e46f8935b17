import Mathlib.Logic.Function.Basic
import TonyCat.Library.Mailbox
import TonyCat.Library.Run

set_option autoImplicit false

/-! `SpinLock`, and the threads that read and write shared data under its `lock_guard`. -/

namespace TonyCat.Utility

open TonyCat.Library

inductive LockPoint (D O : Type*)
  | away
  /-- before `m_atomic_bool.exchange(true)` -/
  | exchange (op : O)
  /-- before the `load` of the inner loop -/
  | load (op : O)
  /-- the lock is taken -/
  | entered (op : O)
  /-- the shared data has been read -/
  | changing (op : O) (found : D)
  /-- the shared data has been written -/
  | unlock (op : O) (found : D)
deriving DecidableEq

namespace LockPoint

variable {D O : Type*}

def inside : LockPoint D O → Bool
  | entered _ | changing .. | unlock .. => true
  | _ => false

def op : LockPoint D O → Option O
  | away => none
  | exchange op | load op | entered op | changing op _ | unlock op _ => some op

def toDo : LockPoint D O → Option O
  | exchange op | load op | entered op | changing op _ => some op
  | away | unlock .. => none

lemma op_of_toDo {point : LockPoint D O} {op : O} (h : point.toDo = some op) : point.op = some op := by
  cases point <;> first | exact h | cases h

end LockPoint

structure SpinLock (D O : Type*) where
  m_atomic_bool : Bool
  data : D
  point : ℕ → LockPoint D O
  /-- the sections that have been done -/
  history : List (Section D O)

inductive LockEvent (O : Type*)
  | lock (thread : ℕ) (op : O)
  | try_lock (thread : ℕ) (op : O)
  /-- a thread in the code of the lock goes on -/
  | go (thread : ℕ)

namespace SpinLock

variable {D O : Type*}

def init (data : D) : SpinLock D O := ⟨false, data, fun _ => .away, []⟩

def move (L : SpinLock D O) (thread : ℕ) (point : LockPoint D O) : SpinLock D O :=
  { L with point := Function.update L.point thread point }

def lock (L : SpinLock D O) (thread : ℕ) (op : O) : Option (SpinLock D O) :=
  match L.point thread with
  | .away => some (L.move thread (.exchange op))
  | _ => none

def try_lock (L : SpinLock D O) (thread : ℕ) (op : O) : Option (SpinLock D O) :=
  match L.point thread with
  | .away => some { L.move thread (if L.m_atomic_bool then .away else .entered op) with m_atomic_bool := true }
  | _ => none

def go (apply : O → D → D) (L : SpinLock D O) (thread : ℕ) : Option (SpinLock D O) :=
  match L.point thread with
  | .away => none
  | .exchange op =>
    some { L.move thread (if L.m_atomic_bool then .load op else .entered op) with m_atomic_bool := true }
  | .load op => some (L.move thread (if L.m_atomic_bool then .load op else .exchange op))
  | .entered op => some (L.move thread (.changing op L.data))
  | .changing op found =>
    some { L.move thread (.unlock op found) with
      data := apply op found, history := L.history ++ [⟨thread, op, found⟩] }
  | .unlock _ _ => some { L.move thread .away with m_atomic_bool := false }

def step (apply : O → D → D) (L : SpinLock D O) : LockEvent O → Option (SpinLock D O)
  | .lock thread op => L.lock thread op
  | .try_lock thread op => L.try_lock thread op
  | .go thread => L.go apply thread

structure Sound (apply : O → D → D) (start : D) (L : SpinLock D O) : Prop where
  flag : L.m_atomic_bool = true ↔ ∃ thread, (L.point thread).inside = true
  alone : ∀ thread thread', (L.point thread).inside = true → (L.point thread').inside = true → thread = thread'
  read : ∀ thread op found, L.point thread = .changing op found → found = L.data
  serial : Serial apply start L.history L.data

variable {apply : O → D → D} {start : D} {L L' : SpinLock D O} {thread : ℕ}

lemma sound_init : Sound apply start (init start : SpinLock D O) where
  flag := by simp [init, LockPoint.inside]
  alone := by simp [init, LockPoint.inside]
  read := by simp [init]
  serial := .nil

lemma point_move (point : LockPoint D O) : (L.move thread point).point thread = point := Function.update_self ..

lemma point_move_of_ne {thread' : ℕ} (h : thread' ≠ thread) (point : LockPoint D O) :
    (L.move thread point).point thread' = L.point thread' := Function.update_of_ne h ..

lemma Sound.waits (hs : Sound apply start L) {point : LockPoint D O} (hout : (L.point thread).inside = false)
    (hpoint : point.inside = false) : Sound apply start (L.move thread point) := by
  have hinside : ∀ thread', ((L.move thread point).point thread').inside = (L.point thread').inside := by
    intro thread'
    by_cases h : thread' = thread
    · rw [h, point_move, hpoint, hout]
    · rw [point_move_of_ne h]
  refine ⟨?_, ?_, ?_, hs.serial⟩
  · simp only [hinside]
    exact hs.flag
  · simp only [hinside]
    exact hs.alone
  · intro thread' op found hread
    by_cases h : thread' = thread
    · rw [h, point_move] at hread
      rw [hread] at hpoint
      cases hpoint
    · rw [point_move_of_ne h] at hread
      exact hs.read _ _ _ hread

lemma Sound.enters (hs : Sound apply start L) (hfree : L.m_atomic_bool = false) (op : O) :
    Sound apply start { L.move thread (.entered op) with m_atomic_bool := true } := by
  have hnone : ∀ thread', (L.point thread').inside = false := by
    intro thread'
    by_contra hin
    rw [hs.flag.mpr ⟨thread', by simpa using hin⟩] at hfree
    cases hfree
  have hother : ∀ thread', ((L.move thread (.entered op)).point thread').inside = true → thread' = thread := by
    intro thread' hin
    by_contra h
    rw [point_move_of_ne h, hnone] at hin
    cases hin
  refine ⟨⟨fun _ => ⟨thread, ?_⟩, fun _ => rfl⟩, ?_, ?_, hs.serial⟩
  · rw [point_move]
    rfl
  · intro thread' thread'' hin hin'
    exact (hother _ hin).trans (hother _ hin').symm
  · intro thread' op' found hread
    have h : thread' = thread := by
      apply hother
      rw [hread]
      rfl
    rw [h, point_move] at hread
    cases hread

lemma Sound.inside (hs : Sound apply start L) (hin : (L.point thread).inside = true) {point : LockPoint D O}
    (hpoint : point.inside = true) {data : D} {history : List (Section D O)}
    (hread : ∀ op found, point = .changing op found → found = data) (hserial : Serial apply start history data) :
    Sound apply start { L.move thread point with data := data, history := history } := by
  have hinside : ∀ thread', ((L.move thread point).point thread').inside = (L.point thread').inside := by
    intro thread'
    by_cases h : thread' = thread
    · rw [h, point_move, hpoint, hin]
    · rw [point_move_of_ne h]
  refine ⟨?_, ?_, ?_, hserial⟩
  · simp only [hinside]
    exact hs.flag
  · simp only [hinside]
    exact hs.alone
  · intro thread' op found hat
    have h : thread' = thread := by
      apply hs.alone _ _ _ hin
      rw [← hinside, hat]
      rfl
    rw [h, point_move] at hat
    exact hread op found hat

lemma Sound.leaves (hs : Sound apply start L) (hin : (L.point thread).inside = true) :
    Sound apply start { L.move thread .away with m_atomic_bool := false } := by
  have hnone : ∀ thread', ((L.move thread .away).point thread').inside = false := by
    intro thread'
    by_cases h : thread' = thread
    · rw [h, point_move]
      rfl
    · rw [point_move_of_ne h]
      by_contra hin'
      exact h (hs.alone _ _ (by simpa using hin') hin)
  refine ⟨?_, ?_, ?_, hs.serial⟩
  · simp only [hnone]
    simp
  · intro thread' thread'' hin'
    rw [hnone] at hin'
    cases hin'
  · intro thread' op found hread
    have hout := hnone thread'
    rw [hread] at hout
    cases hout

lemma lock_eq_some {op : O} (h : L.lock thread op = some L') :
    L.point thread = .away ∧ L' = L.move thread (.exchange op) := by
  rw [SpinLock.lock] at h
  split at h
  case h_1 haway =>
    cases h
    exact ⟨haway, rfl⟩
  case h_2 => cases h

lemma Sound.lock (hs : Sound apply start L) {op : O} (h : L.lock thread op = some L') : Sound apply start L' := by
  obtain ⟨haway, rfl⟩ := lock_eq_some h
  exact hs.waits (by rw [haway]; rfl) rfl

lemma Sound.try_lock (hs : Sound apply start L) {op : O} (h : L.try_lock thread op = some L') :
    Sound apply start L' := by
  rw [SpinLock.try_lock] at h
  split at h
  case h_1 haway =>
    cases h
    cases hfree : L.m_atomic_bool with
    | false =>
      rw [if_neg Bool.false_ne_true]
      exact hs.enters hfree op
    | true =>
      rw [if_pos rfl, ← hfree]
      exact hs.waits (by rw [haway]; rfl) rfl
  case h_2 => cases h

theorem Sound.go (hs : Sound apply start L) (h : L.go apply thread = some L') : Sound apply start L' := by
  rw [SpinLock.go] at h
  split at h
  case h_1 => cases h
  case h_2 op hat =>
    cases h
    cases hfree : L.m_atomic_bool with
    | false =>
      rw [if_neg Bool.false_ne_true]
      exact hs.enters hfree op
    | true =>
      rw [if_pos rfl, ← hfree]
      exact hs.waits (by rw [hat]; rfl) rfl
  case h_3 op hat =>
    cases h
    apply hs.waits (by rw [hat]; rfl)
    split <;> rfl
  case h_4 op hat =>
    cases h
    refine hs.inside (by rw [hat]; rfl) rfl ?_ hs.serial
    intro op' found heq
    cases heq
    rfl
  case h_5 op found hat =>
    cases h
    have hfound : found = L.data := hs.read _ _ _ hat
    refine hs.inside (by rw [hat]; rfl) rfl (by simp) ?_
    rw [hfound]
    exact .concat thread op hs.serial
  case h_6 op found hat =>
    cases h
    exact hs.leaves (by rw [hat]; rfl)

theorem Sound.step (hs : Sound apply start L) {e : LockEvent O} (h : L.step apply e = some L') :
    Sound apply start L' := by
  cases e with
  | lock thread op =>
    exact hs.lock h
  | try_lock thread op => exact hs.try_lock h
  | go thread => exact hs.go h

lemma sound_of_run {es : List (LockEvent O)} (h : run (step apply) (init start) es = some L) : Sound apply start L :=
  run_keeps (fun hs hone => hs.step hone) sound_init h

theorem spin_lock_serial {es : List (LockEvent O)} (h : run (step apply) (init start) es = some L) :
    (∀ thread thread', (L.point thread).inside = true → (L.point thread').inside = true → thread = thread') ∧
      Serial apply start L.history L.data := by
  have hs := sound_of_run h
  exact ⟨hs.alone, hs.serial⟩

/-- Thread 2 waits while thread 1 counts. -/
def twoIncrements : List (LockEvent Unit) :=
  [.lock 1 (), .lock 2 (), .go 1, .go 2, .go 1, .go 2, .go 1, .go 1, .go 2, .go 2, .go 2, .go 2]

theorem serial_twoIncrements : ∃ L : SpinLock ℕ Unit, run (step fun _ n => n + 1) (init 0) twoIncrements = some L ∧
    L.data = 2 ∧ Serial (fun _ n => n + 1) 0 L.history L.data := by
  have hrun : run (step fun _ n => n + 1) (init 0) twoIncrements = some _ := rfl
  exact ⟨_, hrun, rfl, (spin_lock_serial hrun).2⟩

inductive Gone (L L' : SpinLock D O) (thread : ℕ) : Prop
  | waits {op : O} (before : (L.point thread).toDo = some op) (after : (L'.point thread).toDo = some op)
      (history : L'.history = L.history)
  | does {op : O} {found : D} (before : L.point thread = .changing op found) (after : L'.point thread = .unlock op found)
      (history : L'.history = L.history ++ [⟨thread, op, found⟩])
  | leaves {op : O} {found : D} (before : L.point thread = .unlock op found) (after : L'.point thread = .away)
      (history : L'.history = L.history)

lemma gone_of_go (h : L.go apply thread = some L') :
    Gone L L' thread ∧ ∀ thread', thread' ≠ thread → L'.point thread' = L.point thread' := by
  rw [SpinLock.go] at h
  split at h
  case h_1 => cases h
  case h_2 op hat =>
    cases h
    refine ⟨.waits (by rw [hat]; rfl) ?_ rfl, fun thread' hne => point_move_of_ne hne _⟩
    rw [point_move]
    split <;> rfl
  case h_3 op hat =>
    cases h
    refine ⟨.waits (by rw [hat]; rfl) ?_ rfl, fun thread' hne => point_move_of_ne hne _⟩
    rw [point_move]
    split <;> rfl
  case h_4 op hat =>
    cases h
    refine ⟨.waits (by rw [hat]; rfl) ?_ rfl, fun thread' hne => point_move_of_ne hne _⟩
    rw [point_move]
    rfl
  case h_5 op found hat =>
    cases h
    exact ⟨.does hat (point_move _) rfl, fun thread' hne => point_move_of_ne hne _⟩
  case h_6 op found hat =>
    cases h
    exact ⟨.leaves hat (point_move _) rfl, fun thread' hne => point_move_of_ne hne _⟩

structure Released (L L' : SpinLock D O) (thread : ℕ) : Prop where
  point : L'.point thread = .away
  flag : L'.m_atomic_bool = false
  others : ∀ thread', thread' ≠ thread → L'.point thread' = L.point thread'

lemma Released.of_move {L L' : SpinLock D O} {point : LockPoint D O} {b : Bool} {data : D} {history : List (Section D O)}
    (h : Released ⟨b, data, (L.move thread point).point, history⟩ L' thread) : Released L L' thread :=
  ⟨h.point, h.flag, fun thread' hne => (h.others thread' hne).trans (point_move_of_ne hne point)⟩

lemma exists_release (apply : O → D → D) (hin : (L.point thread).inside = true) :
    ∃ n L', run (step apply) L (List.replicate n (.go thread)) = some L' ∧ Released L L' thread := by
  have hunlock : ∀ {L : SpinLock D O} {op : O} {found : D}, L.point thread = .unlock op found →
      ∃ L', run (step apply) L [.go thread] = some L' ∧ Released L L' thread := by
    intro L op found hat
    refine ⟨{ L.move thread .away with m_atomic_bool := false }, ?_, point_move .away, rfl,
      fun thread' hne => point_move_of_ne hne _⟩
    rw [run, step, SpinLock.go, hat]
    rfl
  have hchanging : ∀ {L : SpinLock D O} {op : O} {found : D}, L.point thread = .changing op found →
      ∃ L', run (step apply) L [.go thread, .go thread] = some L' ∧ Released L L' thread := by
    intro L op found hat
    obtain ⟨L', hrun, hreleased⟩ := hunlock (L := { L.move thread (.unlock op found) with
      data := apply op found, history := L.history ++ [⟨thread, op, found⟩] }) (point_move (.unlock op found))
    refine ⟨L', ?_, hreleased.of_move⟩
    rw [run, step, SpinLock.go, hat]
    exact hrun
  cases hat : L.point thread with
  | entered op =>
    obtain ⟨L', hrun, hreleased⟩ := hchanging (L := L.move thread (.changing op L.data)) (point_move _)
    refine ⟨3, L', ?_, hreleased.of_move⟩
    rw [List.replicate, run, step, SpinLock.go, hat]
    exact hrun
  | changing op found =>
    obtain ⟨L', hrun, hreleased⟩ := hchanging hat
    exact ⟨2, L', hrun, hreleased⟩
  | unlock op found =>
    obtain ⟨L', hrun, hreleased⟩ := hunlock hat
    exact ⟨1, L', hrun, hreleased⟩
  | away | exchange | load =>
    rw [hat] at hin
    cases hin

lemma exists_enter (apply : O → D → D) (hfree : L.m_atomic_bool = false) (hat : L.point thread ≠ .away) :
    ∃ n L', run (step apply) L (List.replicate n (.go thread)) = some L' ∧ (L'.point thread).inside = true := by
  have hexchange : ∀ {L : SpinLock D O} {op : O}, L.m_atomic_bool = false → L.point thread = .exchange op →
      ∃ L', run (step apply) L [.go thread] = some L' ∧ (L'.point thread).inside = true := by
    intro L op hfree hat
    refine ⟨{ L.move thread (.entered op) with m_atomic_bool := true }, ?_, ?_⟩
    · rw [run, step, SpinLock.go, hat, hfree]
      rfl
    · rw [point_move]
      rfl
  cases hpoint : L.point thread with
  | away => exact absurd hpoint hat
  | exchange op =>
    obtain ⟨L', hrun, hin⟩ := hexchange hfree hpoint
    exact ⟨1, L', hrun, hin⟩
  | load op =>
    obtain ⟨L', hrun, hin⟩ := hexchange (L := L.move thread (.exchange op)) hfree (point_move (.exchange op))
    refine ⟨2, L', ?_, hin⟩
    rw [List.replicate, run, step, SpinLock.go, hpoint, hfree]
    exact hrun
  | entered | changing | unlock => exact ⟨0, L, rfl, by rw [hpoint]; rfl⟩

lemma exists_leave (apply : O → D → D) (hfree : L.m_atomic_bool = false) (thread : ℕ) :
    ∃ n L', run (step apply) L (List.replicate n (.go thread)) = some L' ∧ L'.point thread = .away := by
  cases hpoint : L.point thread with
  | away => exact ⟨0, L, rfl, hpoint⟩
  | exchange | load | entered | changing | unlock =>
    obtain ⟨n, L₁, hrun₁, hin⟩ := exists_enter apply hfree (show L.point thread ≠ .away by rw [hpoint]; simp)
    obtain ⟨m, L₂, hrun₂, hreleased⟩ := exists_release apply hin
    refine ⟨n + m, L₂, ?_, hreleased.point⟩
    rw [List.replicate_add, run_append, hrun₁]
    exact hrun₂

lemma exists_free (hs : Sound apply start L) :
    ∃ (threads : List ℕ) (L' : SpinLock D O), run (step apply) L (threads.map LockEvent.go) = some L' ∧
      L'.m_atomic_bool = false := by
  cases hflag : L.m_atomic_bool with
  | false => exact ⟨[], L, rfl, hflag⟩
  | true =>
    obtain ⟨holder, hin⟩ := hs.flag.mp hflag
    obtain ⟨n, L', hrun, hreleased⟩ := exists_release apply hin
    refine ⟨List.replicate n holder, L', ?_, hreleased.flag⟩
    rw [List.map_replicate]
    exact hrun

/-- Wherever a run has got to, each thread in the code of the lock can still come out of it: the one inside, if there
is one, goes on until it has released the lock. -/
theorem spin_lock_no_deadlock {es : List (LockEvent O)} (h : run (step apply) (init start) es = some L) (thread : ℕ) :
    ∃ (threads : List ℕ) (L' : SpinLock D O), run (step apply) L (threads.map LockEvent.go) = some L' ∧ L'.point thread = .away := by
  obtain ⟨threads, L₁, hrun₁, hfree⟩ := exists_free (sound_of_run h)
  obtain ⟨n, L₂, hrun₂, haway⟩ := exists_leave apply hfree thread
  refine ⟨threads ++ List.replicate n thread, L₂, ?_, haway⟩
  rw [List.map_append, List.map_replicate, run_append, hrun₁]
  exact hrun₂

theorem no_deadlock_twoIncrements : ∃ L : SpinLock ℕ Unit,
    run (step fun _ n => n + 1) (init 0) (twoIncrements.take 4) = some L ∧ L.point 2 = .load () ∧
      ∃ (threads : List ℕ) (L' : SpinLock ℕ Unit),
        run (step fun _ n => n + 1) L (threads.map LockEvent.go) = some L' ∧ L'.point 2 = .away := by
  have hrun : run (step fun _ n => n + 1) (init 0) (twoIncrements.take 4) = some _ := rfl
  exact ⟨_, hrun, rfl, spin_lock_no_deadlock hrun 2⟩

end SpinLock

end TonyCat.Utility
