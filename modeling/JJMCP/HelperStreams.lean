import JJMCP.Text
import JJMCP.Lib.Runs

namespace JJMCP

inductive Chan
  | out | err
  deriving DecidableEq, Repr

/-- What stdout or stderr can stand for: the terminal, or the pipe of a task. -/
inductive Stream
  | terminal (c : Chan)
  | pipe (task : Nat) (c : Chan)
  deriving DecidableEq, Repr

inductive EvalPhase
  | idle | saved | redirectedOut | running | closing | closed | restoredOut | draining | returned
  deriving DecidableEq, Repr

/-- Who wrote a text: the user code of a task (the show of its value and the tasks it
leaves behind too), or the helper for it. -/
inductive Writer
  | user (task : Nat)
  | helper (task : Nat)
  deriving DecidableEq, Repr

structure Chunk where
  writer : Writer
  text : Text
  deriving DecidableEq, Repr

structure HelperState where
  current : Chan → Stream
  phase : Nat → EvalPhase
  /-- original_stdout and original_stderr of each task. -/
  original : Nat → Chan → Stream
  pipe : Nat → Chan → List Chunk
  sent : List (Chunk × Stream)

inductive HelperAction
  | save (i : Nat)
  | redirectOut (i : Nat)
  | redirectErr (i : Nat)
  | print (i : Nat) (c : Chan) (text : Text)
  | finish (i : Nat)
  | close (i : Nat)
  | restoreOut (i : Nat)
  | restoreErr (i : Nat)
  | drain (i : Nat) (c : Chan)
  | shown (i : Nat) (c : Chan) (text : Text)
  | echo (i : Nat) (c : Chan) (text : Text)
  | done (i : Nat)
  | leftover (i : Nat) (c : Chan) (text : Text)
  deriving DecidableEq, Repr

end JJMCP

namespace JJMCP.HelperStreams

open Text Lib.Runs

def init : HelperState where
  current := .terminal
  phase _ := .idle
  original _ := .terminal
  pipe _ _ := []
  sent := []

def setPhase (s : HelperState) (i : Nat) (phase : EvalPhase) : HelperState :=
  { s with phase := Function.update s.phase i phase }

def setCurrent (s : HelperState) (c : Chan) (stream : Stream) : HelperState :=
  { s with current := Function.update s.current c stream }

def isOpen (s : HelperState) (i : Nat) : Bool :=
  match s.phase i with
  | .saved | .redirectedOut | .running | .closing => true
  | _ => false

/-- A write to a closed pipe fails and sends nothing. -/
def send (s : HelperState) (stream : Stream) (chunks : List Chunk) : HelperState :=
  match stream with
  | .terminal c => { s with sent := s.sent ++ chunks.map (·, .terminal c) }
  | .pipe j c =>
      if isOpen s j then
        { s with
          sent := s.sent ++ chunks.map (·, .pipe j c)
          pipe := Function.update s.pipe j (Function.update (s.pipe j) c (s.pipe j c ++ chunks)) }
      else s

def takePipe (s : HelperState) (i : Nat) (c : Chan) : HelperState :=
  { s with pipe := Function.update s.pipe i (Function.update (s.pipe i) c []) }

/-- Both drain tasks have ended. -/
def Drained (s : HelperState) (i : Nat) : Prop := s.phase i = .draining ∧ ∀ c, s.pipe i c = []

instance (s : HelperState) (i : Nat) : Decidable (∀ c, s.pipe i c = []) :=
  decidable_of_iff (s.pipe i .out = [] ∧ s.pipe i .err = [])
    ⟨fun h c => by cases c with | out => exact h.1 | err => exact h.2, fun h => ⟨h .out, h .err⟩⟩

instance (s : HelperState) (i : Nat) : Decidable (Drained s i) := inferInstanceAs (Decidable (_ ∧ _))

/-- The user code has been started, so tasks of its own may run. -/
def begun : EvalPhase → Bool
  | .idle | .saved | .redirectedOut => false
  | .running | .closing | .closed | .restoredOut | .draining | .returned => true

def step (s : HelperState) : HelperAction → Option HelperState
  | .save i =>
      if s.phase i = .idle then
        some (setPhase { s with original := Function.update s.original i s.current } i .saved)
      else none
  | .redirectOut i =>
      if s.phase i = .saved then some (setPhase (setCurrent s .out (.pipe i .out)) i .redirectedOut) else none
  | .redirectErr i =>
      if s.phase i = .redirectedOut then some (setPhase (setCurrent s .err (.pipe i .err)) i .running) else none
  | .print i c text =>
      if s.phase i = .running then some (send s (s.current c) [⟨.user i, text⟩]) else none
  | .finish i => if s.phase i = .running then some (setPhase s i .closing) else none
  | .close i => if s.phase i = .closing then some (setPhase s i .closed) else none
  | .restoreOut i =>
      if s.phase i = .closed then some (setPhase (setCurrent s .out (s.original i .out)) i .restoredOut) else none
  | .restoreErr i =>
      if s.phase i = .restoredOut then some (setPhase (setCurrent s .err (s.original i .err)) i .draining) else none
  | .drain i c =>
      -- _drain_pipe_tail: what the pipe holds goes to the mirror
      if s.phase i = .idle then none else some (send (takePipe s i c) (s.original i c) (s.pipe i c))
  | .shown i c text =>
      -- the show method of the value runs once both drain tasks have been fetched
      if Drained s i then some (send s (s.current c) [⟨.user i, text⟩]) else none
  | .echo i c text =>
      if Drained s i then some (send s (s.current c) [⟨.helper i, text⟩]) else none
  | .done i => if Drained s i then some (setPhase s i .returned) else none
  | .leftover i c text =>
      -- a task that the user code left behind prints to whatever the global is by then
      if begun (s.phase i) then some (send s (s.current c) [⟨.user i, text⟩]) else none

def evaluating : EvalPhase → Bool
  | .saved | .redirectedOut | .running | .closing | .closed | .restoredOut => true
  | .idle | .draining | .returned => false

/-- No eval starts while another one has the streams. -/
def StartsAlone (s : HelperState) : HelperAction → Prop
  | .save _ => ∀ j, evaluating (s.phase j) = false
  | _ => True

/-- What the code of an eval prints outside its own turn comes while no other eval has
the streams. -/
def PrintsAlone (s : HelperState) : HelperAction → Prop
  | .shown i _ _ | .leftover i _ _ => ∀ j, j ≠ i → evaluating (s.phase j) = false
  | _ => True

def Alone (s : HelperState) (a : HelperAction) : Prop := StartsAlone s a ∧ PrintsAlone s a

def streamOf (i : Nat) (phase : EvalPhase) (c : Chan) : Stream :=
  match phase, c with
  | .redirectedOut, .out | .running, _ | .closing, _ | .closed, _ | .restoredOut, .err => .pipe i c
  | _, _ => .terminal c

def Own (chunk : Chunk) (j : Nat) : Prop := ∀ i, chunk.writer = .user i → i = j

structure Inv (s : HelperState) : Prop where
  one : ∀ i j, evaluating (s.phase i) = true → evaluating (s.phase j) = true → i = j
  free : (∀ i, evaluating (s.phase i) = false) → s.current = .terminal
  busy : ∀ i, evaluating (s.phase i) = true → s.current = streamOf i (s.phase i)
  original : ∀ i, s.phase i ≠ .idle → s.original i = .terminal
  pipe : ∀ j c, ∀ chunk ∈ s.pipe j c, Own chunk j
  sent : ∀ chunk j c, (chunk, .pipe j c) ∈ s.sent → Own chunk j

theorem streamOf_pipe {i j : Nat} {phase : EvalPhase} {c d : Chan} (h : streamOf i phase c = .pipe j d) : j = i := by
  cases phase <;> cases c <;> first | exact (Stream.pipe.inj h).1.symm | cases h

theorem inv_init : Inv init :=
  ⟨fun _ _ h => by simp [init, evaluating] at h, fun _ => rfl, fun _ h => by simp [init, evaluating] at h,
    fun _ _ => rfl, fun _ _ _ h => by simp [init] at h, fun _ _ _ h => by simp [init] at h⟩

@[simp] theorem setCurrent_current (s : HelperState) (c : Chan) (stream : Stream) :
    (setCurrent s c stream).current = Function.update s.current c stream := rfl

@[simp] theorem send_phase (s : HelperState) (stream : Stream) (chunks : List Chunk) :
    (send s stream chunks).phase = s.phase := by
  cases stream with
  | terminal c => rfl
  | pipe j c =>
      simp only [send]
      split <;> rfl

theorem Inv.send {s : HelperState} (h : Inv s) {stream : Stream} {chunks : List Chunk}
    (hown : ∀ j c, stream = .pipe j c → ∀ chunk ∈ chunks, Own chunk j) : Inv (send s stream chunks) := by
  cases stream with
  | terminal c =>
      refine ⟨h.one, h.free, h.busy, h.original, h.pipe, fun chunk j c' hm => ?_⟩
      simp only [HelperStreams.send, List.mem_append] at hm
      rcases hm with hm | hm
      · exact h.sent chunk j c' hm
      · simp at hm
  | pipe k c =>
      simp only [HelperStreams.send]
      split
      · refine ⟨h.one, h.free, h.busy, h.original, fun j c' chunk hm => ?_, fun chunk j c' hm => ?_⟩
        · dsimp only at hm
          by_cases hj : j = k
          · subst hj
            rw [Function.update_self, Function.update_apply] at hm
            split at hm
            · rcases List.mem_append.mp hm with hm | hm
              · exact h.pipe j c chunk hm
              · exact hown j c rfl chunk hm
            · exact h.pipe j c' chunk hm
          · rw [Function.update_of_ne hj] at hm
            exact h.pipe j c' chunk hm
        · rcases List.mem_append.mp hm with hm | hm
          · exact h.sent chunk j c' hm
          · obtain ⟨x, hx, he⟩ := List.mem_map.mp hm
            obtain ⟨rfl, hp⟩ := Prod.mk.inj he
            obtain ⟨rfl, rfl⟩ := Stream.pipe.inj hp
            exact hown k c rfl x hx
      · exact h

theorem Inv.takePipe {s : HelperState} (h : Inv s) (i : Nat) (c : Chan) : Inv (takePipe s i c) := by
  refine ⟨h.one, h.free, h.busy, h.original, fun j c' chunk hm => ?_, h.sent⟩
  simp only [HelperStreams.takePipe, Function.update_apply] at hm
  split at hm
  next hj =>
    subst hj
    rw [Function.update_apply] at hm
    split at hm
    · simp at hm
    · exact h.pipe j c' chunk hm
  next => exact h.pipe j c' chunk hm

theorem Inv.current {s : HelperState} (h : Inv s) {i : Nat} {phase : EvalPhase} (hi : s.phase i = phase)
    (hev : evaluating phase = true) : s.current = streamOf i phase := by
  rw [h.busy i (hi ▸ hev), hi]

theorem Inv.advance {s : HelperState} (h : Inv s) {i : Nat} {phase phase' : EvalPhase} {current : Chan → Stream}
    (hi : s.phase i = phase) (hev : evaluating phase = true) (hev' : evaluating phase' = true)
    (hcur : current = streamOf i phase') : Inv { setPhase s i phase' with current := current } := by
  have hidle : s.phase i ≠ .idle := fun he => by simp [← hi, he, evaluating] at hev
  have honly : ∀ j, evaluating (Function.update s.phase i phase' j) = true → j = i := by
    intro j hj
    by_contra hne
    rw [Function.update_of_ne hne] at hj
    exact hne (h.one j i hj (hi ▸ hev))
  refine ⟨fun j k hj hk => (honly j hj).trans (honly k hk).symm, fun hn => ?_, fun j hj => ?_, fun j hj => ?_,
    h.pipe, h.sent⟩
  · have := hn i
    simp [setPhase, hev'] at this
  · obtain rfl := honly j hj
    simpa [setPhase] using hcur
  · by_cases hji : j = i
    · exact hji ▸ h.original i hidle
    · exact h.original j (by simpa [setPhase, Function.update_of_ne hji] using hj)

theorem Inv.leave {s : HelperState} (h : Inv s) {i : Nat} {phase : EvalPhase} {current : Chan → Stream}
    (hi : s.phase i ≠ .idle) (hev : evaluating phase = false)
    (hcur : current = if evaluating (s.phase i) then .terminal else s.current) :
    Inv { setPhase s i phase with current := current } := by
  have hkeep : ∀ j, evaluating (Function.update s.phase i phase j) = true →
      j ≠ i ∧ evaluating (s.phase j) = true := by
    intro j hj
    rw [Function.update_apply] at hj
    split at hj
    next => simp [hev] at hj
    next hne => exact ⟨hne, hj⟩
  refine ⟨fun j k hj hk => h.one j k (hkeep j hj).2 (hkeep k hk).2, fun hn => ?_, fun j hj => ?_, fun j hj => ?_,
    h.pipe, h.sent⟩
  · rw [hcur]
    split
    next => rfl
    next hnot =>
      refine h.free fun j => ?_
      by_cases hji : j = i
      · exact hji ▸ by simpa using hnot
      · have := hn j
        simpa [setPhase, Function.update_of_ne hji] using this
  · obtain ⟨hne, hevj⟩ := hkeep j hj
    have hnot : ¬ evaluating (s.phase i) = true := fun hevi => hne (h.one j i hevj hevi)
    rw [hcur, if_neg hnot]
    simpa [setPhase, Function.update_of_ne hne] using h.busy j hevj
  · by_cases hji : j = i
    · exact hji ▸ h.original i hi
    · exact h.original j (by simpa [setPhase, Function.update_of_ne hji] using hj)

theorem Inv.save {s : HelperState} (h : Inv s) (i : Nat) (hidle : ∀ j, evaluating (s.phase j) = false) :
    Inv (setPhase { s with original := Function.update s.original i s.current } i .saved) := by
  have hfree := h.free hidle
  have honly : ∀ j, evaluating (Function.update s.phase i .saved j) = true → j = i := by
    intro j hj
    by_contra hne
    rw [Function.update_of_ne hne, hidle j] at hj
    cases hj
  refine ⟨fun j k hj hk => (honly j hj).trans (honly k hk).symm, fun _ => hfree, fun j hj => ?_,
    fun j hj => ?_, h.pipe, h.sent⟩
  · obtain rfl := honly j hj
    simp only [setPhase, Function.update_self, hfree]
    funext c
    cases c <;> rfl
  · by_cases hji : j = i
    · simp [setPhase, hji, hfree]
    · simpa [setPhase, Function.update_of_ne hji] using
        h.original j (by simpa [setPhase, Function.update_of_ne hji] using hj)

/-- A text of task i, printed while no other task has the streams. -/
theorem Inv.print {s : HelperState} (h : Inv s) {i : Nat} (hother : ∀ j, j ≠ i → evaluating (s.phase j) = false)
    (c : Chan) (text : Text) : Inv (HelperStreams.send s (s.current c) [⟨.user i, text⟩]) := by
  refine h.send fun j c' he chunk hm => ?_
  rw [List.mem_singleton.mp hm]
  have hji : j = i := by
    cases hev : evaluating (s.phase i) with
    | true =>
        rw [h.busy i hev] at he
        exact streamOf_pipe he
    | false =>
        rw [h.free fun j => if hj : j = i then hj ▸ hev else hother j hj] at he
        cases he
  exact fun k hk => hji ▸ (Writer.user.inj hk).symm

theorem Inv.helper {s : HelperState} (h : Inv s) (i : Nat) (stream : Stream) (text : Text) :
    Inv (HelperStreams.send s stream [⟨.helper i, text⟩]) := by
  refine h.send fun j c' _ chunk hm k hk => ?_
  rw [List.mem_singleton.mp hm] at hk
  cases hk

theorem update_streamOf {i : Nat} {phase phase' : EvalPhase} {c : Chan} {stream : Stream}
    (hc : stream = streamOf i phase' c) (hother : ∀ d, d ≠ c → streamOf i phase d = streamOf i phase' d) :
    Function.update (streamOf i phase) c stream = streamOf i phase' := by
  funext d
  by_cases hd : d = c
  · rw [hd, Function.update_self, hc]
  · rw [Function.update_of_ne hd, hother d hd]

theorem step_inv {s s' : HelperState} {a : HelperAction} (h : Inv s) (ha : Alone s a)
    (hstep : step s a = some s') : Inv s' := by
  cases a with
  | save i =>
      simp only [step, Option.ite_none_right_eq_some, Option.some.injEq] at hstep
      obtain ⟨_, rfl⟩ := hstep
      exact h.save i ha.1
  | redirectOut i =>
      simp only [step, Option.ite_none_right_eq_some, Option.some.injEq] at hstep
      obtain ⟨hp, rfl⟩ := hstep
      refine h.advance hp rfl rfl ?_
      rw [setCurrent_current, h.current hp rfl]
      exact update_streamOf rfl fun d hd => by cases d <;> trivial
  | redirectErr i =>
      simp only [step, Option.ite_none_right_eq_some, Option.some.injEq] at hstep
      obtain ⟨hp, rfl⟩ := hstep
      refine h.advance hp rfl rfl ?_
      rw [setCurrent_current, h.current hp rfl]
      exact update_streamOf rfl fun d hd => by cases d <;> trivial
  | print i c text =>
      simp only [step, Option.ite_none_right_eq_some, Option.some.injEq] at hstep
      obtain ⟨hp, rfl⟩ := hstep
      have hev : evaluating (s.phase i) = true := by rw [hp]; rfl
      refine h.print (fun j hj => ?_) c text
      cases hevj : evaluating (s.phase j) with
      | false => rfl
      | true => exact absurd (h.one j i hevj hev) hj
  | finish i =>
      simp only [step, Option.ite_none_right_eq_some, Option.some.injEq] at hstep
      obtain ⟨hp, rfl⟩ := hstep
      exact h.advance hp rfl rfl ((h.current hp rfl).trans (by funext c; cases c <;> rfl))
  | close i =>
      simp only [step, Option.ite_none_right_eq_some, Option.some.injEq] at hstep
      obtain ⟨hp, rfl⟩ := hstep
      exact h.advance hp rfl rfl ((h.current hp rfl).trans (by funext c; cases c <;> rfl))
  | restoreOut i =>
      simp only [step, Option.ite_none_right_eq_some, Option.some.injEq] at hstep
      obtain ⟨hp, rfl⟩ := hstep
      have hsaved : s.original i .out = .terminal .out := by rw [h.original i (by simp [hp])]
      refine h.advance hp rfl rfl ?_
      rw [setCurrent_current, h.current hp rfl]
      exact update_streamOf hsaved fun d hd => by cases d <;> trivial
  | restoreErr i =>
      simp only [step, Option.ite_none_right_eq_some, Option.some.injEq] at hstep
      obtain ⟨hp, rfl⟩ := hstep
      have hcur := h.current hp rfl
      have hsaved : s.original i .err = .terminal .err := by rw [h.original i (by simp [hp])]
      have hev : evaluating (s.phase i) = true := by rw [hp]; rfl
      refine h.leave (by simp [hp]) rfl ?_
      rw [if_pos hev, setCurrent_current, hsaved, hcur]
      funext d
      cases d <;> rfl
  | drain i c =>
      simp only [step, Option.ite_none_left_eq_some, Option.some.injEq] at hstep
      obtain ⟨hp, rfl⟩ := hstep
      refine (h.takePipe i c).send fun j c' he => ?_
      rw [h.original i hp] at he
      cases he
  | shown i c text =>
      simp only [step, Option.ite_none_right_eq_some, Option.some.injEq] at hstep
      obtain ⟨_, rfl⟩ := hstep
      exact h.print ha.2 c text
  | leftover i c text =>
      simp only [step, Option.ite_none_right_eq_some, Option.some.injEq] at hstep
      obtain ⟨_, rfl⟩ := hstep
      exact h.print ha.2 c text
  | echo i c text =>
      simp only [step, Option.ite_none_right_eq_some, Option.some.injEq] at hstep
      obtain ⟨_, rfl⟩ := hstep
      exact h.helper i _ text
  | done i =>
      simp only [step, Option.ite_none_right_eq_some, Option.some.injEq] at hstep
      obtain ⟨⟨hp, _⟩, rfl⟩ := hstep
      exact h.leave (by simp [hp]) rfl (by simp [hp, evaluating])

/-- When evals start only while no other has the streams, and the shows of their values
and the tasks they leave behind print only then, the streams are the terminal's
whenever no eval has them, and no user text reaches another task's pipe. -/
theorem streams_restored (as : List HelperAction) (s : HelperState) (hmeets : Meets step Alone init as)
    (hrun : run step init as = some s) :
    ((∀ i, evaluating (s.phase i) = false) → s.current = .terminal) ∧
      ∀ i j c text, (⟨⟨.user i, text⟩, .pipe j c⟩ : Chunk × Stream) ∈ s.sent → i = j := by
  have h : Inv s := run_invariant (fun _ _ _ h ha hstep => step_inv h ha hstep) inv_init hmeets hrun
  exact ⟨h.free, fun i j c text hm => h.sent _ j c hm i rfl⟩

def firstEval : List HelperAction :=
  [.save 1, .redirectOut 1, .redirectErr 1, .print 1 .out (lit "a"), .drain 1 .out, .finish 1, .close 1, .restoreOut 1,
   .restoreErr 1]

/-- The value is shown and a task left behind prints before the next eval starts. -/
def inTurn : List HelperAction :=
  firstEval ++ [.shown 1 .out (lit "v"), .echo 1 .out (lit "1"), .leftover 1 .err (lit "t"), .done 1, .save 2,
    .redirectOut 2, .redirectErr 2, .print 2 .err (lit "b")]

theorem streams_restored_in_turn :
    ∃ s, run step init inTurn = some s ∧
      ∀ i j c text, (⟨⟨.user i, text⟩, .pipe j c⟩ : Chunk × Stream) ∈ s.sent → i = j := by
  have hmeets : Meets step Alone init inTurn := by
    repeat' apply And.intro
    all_goals first
      | trivial
      | exact fun _ => rfl
      | exact fun j => match j with | 0 | 1 | _ + 2 => rfl
      | exact fun j hj => match j with | 0 | _ + 2 => rfl | 1 => absurd rfl hj
  obtain ⟨s, hs⟩ : ∃ s, run step init inTurn = some s := ⟨_, rfl⟩
  exact ⟨s, hs, (streams_restored inTurn s hmeets hs).2⟩

/-- The first eval ends inside the second one. -/
def overlapped : List HelperAction :=
  [.save 1, .redirectOut 1, .redirectErr 1, .save 2, .redirectOut 2, .redirectErr 2, .print 1 .out (lit "a"), .finish 1,
   .close 1, .restoreOut 1, .restoreErr 1, .finish 2, .close 2, .restoreOut 2, .restoreErr 2]

/-- The second eval starts once the first one has restored the streams, and has them
when the value of the first one is shown. -/
def lateShow : List HelperAction :=
  firstEval ++ [.save 2, .redirectOut 2, .redirectErr 2, .shown 1 .out (lit "v")]

/-- Two evals that overlap without being nested: the first one prints into the
second one's pipe, and the second one restores the first one's pipe. Without an
overlap of the redirections a value that is shown late reaches the other pipe too. -/
theorem not_streams_restored :
    (¬ ∀ (as : List HelperAction) (s : HelperState), run step init as = some s →
      (∀ i, evaluating (s.phase i) = false) → s.current = .terminal) ∧
    (¬ ∀ (as : List HelperAction) (s : HelperState), run step init as = some s →
      ∀ i j c text, (⟨⟨.user i, text⟩, .pipe j c⟩ : Chunk × Stream) ∈ s.sent → i = j) ∧
    ¬ ∀ (as : List HelperAction) (s : HelperState), Meets step StartsAlone init as → run step init as = some s →
      ∀ i j c text, (⟨⟨.user i, text⟩, .pipe j c⟩ : Chunk × Stream) ∈ s.sent → i = j := by
  obtain ⟨s, hs, hphase, hcur, hsent⟩ : ∃ s, run step init overlapped = some s ∧
      (∀ i, evaluating (s.phase i) = false) ∧ s.current .out = .pipe 1 .out ∧
      (⟨⟨.user 1, lit "a"⟩, .pipe 2 .out⟩ : Chunk × Stream) ∈ s.sent := by
    refine ⟨_, rfl, fun i => ?_, rfl, by decide⟩
    match i with
    | 0 | 1 | 2 | _ + 3 => rfl
  refine ⟨fun h => ?_, fun h => ?_, fun h => ?_⟩
  · have := congrFun (h overlapped s hs hphase) .out
    rw [hcur] at this
    cases this
  · exact absurd (h overlapped s hs 1 2 .out _ hsent) (by decide)
  · have hmeets : Meets step StartsAlone init lateShow := by
      repeat' apply And.intro
      all_goals first
        | trivial
        | exact fun _ => rfl
        | exact fun j => match j with | 0 | 1 | _ + 2 => rfl
    obtain ⟨t, ht, hlate⟩ : ∃ t, run step init lateShow = some t ∧
        (⟨⟨.user 1, lit "v"⟩, .pipe 2 .out⟩ : Chunk × Stream) ∈ t.sent := ⟨_, rfl, by decide⟩
    exact absurd (h lateShow t hmeets ht 1 2 .out _ hlate) (by decide)

end JJMCP.HelperStreams
