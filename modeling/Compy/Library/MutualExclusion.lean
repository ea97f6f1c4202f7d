import Mathlib.Data.List.Basic
import Mathlib.Logic.Function.Basic

/-!
# Programs under one lock

Threads act on a shared state and take a lock, which one thread may take several times.
Where no thread acts without holding the lock, a run under any schedule leads where the
threads lead that run their sections whole, one section after the other in the order in
which the lock was taken.
-/

set_option autoImplicit false

namespace MutualExclusion

variable {S : Type}

/-- The state that an act has found decides how the program goes on. -/
inductive Program (S : Type) where
  | done
  | lock (rest : Program S)
  | unlock (rest : Program S)
  | act (effect : S → S) (rest : S → Program S)

namespace Program

def run : Program S → S → S
  | .done, s => s
  | .lock rest, s => rest.run s
  | .unlock rest, s => rest.run s
  | .act effect rest, s => (rest s).run (effect s)

def andThen : Program S → Program S → Program S
  | .done, later => later
  | .lock rest, later => .lock (rest.andThen later)
  | .unlock rest, later => .unlock (rest.andThen later)
  | .act effect rest, later => .act effect fun s => (rest s).andThen later

def inTurn (programs : List (Program S)) : Program S := programs.foldr andThen .done

/-- Every act of the program, which holds the lock `depth` times, is under the lock, and at
its end the lock is free. -/
def Guarded : Program S → (depth : Nat) → Prop
  | .done, depth => depth = 0
  | .lock rest, depth => rest.Guarded (depth + 1)
  | .unlock rest, depth => ∃ outer, depth = outer + 1 ∧ rest.Guarded outer
  | .act _ rest, depth => 0 < depth ∧ ∀ s, (rest s).Guarded depth

/-- The program ends where it gives the lock back for the last time. -/
def Closes : Program S → (depth : Nat) → Prop
  | .done, depth => depth = 0
  | .lock rest, depth => 0 < depth ∧ rest.Closes (depth + 1)
  | .unlock rest, depth => ∃ outer, depth = outer + 1 ∧ rest.Closes outer
  | .act _ rest, depth => 0 < depth ∧ ∀ s, (rest s).Closes depth

/-- Nothing at all, or one stretch under the lock. -/
inductive Section : Program S → Prop where
  | skip : Section .done
  | locked (rest : Program S) (closes : rest.Closes 1) : Section (.lock rest)

def finish : Program S → (depth : Nat) → S → S × Program S
  | program, 0, s => (s, program)
  | .done, _ + 1, s => (s, .done)
  | .lock rest, depth + 1, s => rest.finish (depth + 2) s
  | .unlock rest, depth + 1, s => rest.finish depth s
  | .act effect rest, depth + 1, s => (rest s).finish (depth + 1) (effect s)

def turn : Program S → S → S × Program S
  | .lock rest, s => rest.finish 1 s
  | program, s => (s, program)

@[simp] theorem finish_zero (program : Program S) (s : S) : program.finish 0 s = (s, program) := by
  cases program <;> rfl

theorem Closes.guarded {program : Program S} {depth : Nat} (closes : program.Closes depth)
    {later : Program S} (guarded : later.Guarded 0) : (program.andThen later).Guarded depth := by
  induction program generalizing depth with
  | done =>
      cases closes
      exact guarded
  | lock rest ih => exact ih closes.2
  | unlock rest ih =>
      obtain ⟨outer, same, closes⟩ := closes
      exact ⟨outer, same, ih closes⟩
  | act effect rest ih => exact ⟨closes.1, fun s => ih s (closes.2 s)⟩

theorem Closes.finish {program : Program S} {depth : Nat} (closes : program.Closes depth)
    (later : Program S) (s : S) :
    (program.andThen later).finish depth s = (program.run s, later) := by
  induction program generalizing depth s with
  | done =>
      cases closes
      exact finish_zero later s
  | lock rest ih =>
      obtain ⟨inside, closes⟩ := closes
      obtain ⟨depth, rfl⟩ := Nat.exists_eq_succ_of_ne_zero (Nat.pos_iff_ne_zero.mp inside)
      exact ih closes s
  | unlock rest ih =>
      obtain ⟨outer, rfl, closes⟩ := closes
      exact ih closes s
  | act effect rest ih =>
      obtain ⟨inside, closes⟩ := closes
      obtain ⟨depth, rfl⟩ := Nat.exists_eq_succ_of_ne_zero (Nat.pos_iff_ne_zero.mp inside)
      exact ih s (closes s) (effect s)

theorem guarded_inTurn {programs : List (Program S)} (sections : ∀ p ∈ programs, Section p) :
    (inTurn programs).Guarded 0 := by
  induction programs with
  | nil => rfl
  | cons program programs ih =>
      obtain ⟨first, others⟩ := List.forall_mem_cons.mp sections
      cases first with
      | skip => exact ih others
      | locked rest closes => exact closes.guarded (ih others)

theorem turn_locked {rest : Program S} (closes : rest.Closes 1) (later : Program S) (s : S) :
    ((Program.lock rest).andThen later).turn s = ((Program.lock rest).run s, later) :=
  closes.finish later s

theorem inTurn_done {programs : List (Program S)}
    (sections : ∀ p ∈ programs, Section p) (done : inTurn programs = .done) :
    ∀ p ∈ programs, p = .done := by
  induction programs with
  | nil => exact nofun
  | cons program programs ih =>
      obtain ⟨first, others⟩ := List.forall_mem_cons.mp sections
      cases first with
      | skip => exact List.forall_mem_cons.mpr ⟨rfl, ih others done⟩
      | locked rest closes => cases done

end Program

/-! ## Threads -/

/-- The thread that holds the lock, and how many times. -/
structure System (ι S : Type) where
  shared : S
  owner : Option (ι × Nat)
  threads : ι → Program S

variable {ι : Type} [DecidableEq ι]

namespace System

/-- The next step of a thread, if it has one and the lock lets it. -/
def step (i : ι) (self : System ι S) : Option (System ι S) :=
  match self.threads i with
  | .done => none
  | .lock rest =>
      match self.owner with
      | none => some { self with owner := some (i, 1), threads := Function.update self.threads i rest }
      | some (j, depth) =>
          if j = i then some { self with
            owner := some (i, depth + 1), threads := Function.update self.threads i rest }
          else none
  | .unlock rest =>
      match self.owner with
      | some (j, depth + 1) =>
          if j = i then some { self with
            owner := if depth = 0 then none else some (i, depth)
            threads := Function.update self.threads i rest }
          else none
      | _ => none
  | .act effect rest => some { self with
      shared := effect self.shared
      threads := Function.update self.threads i (rest self.shared) }

/-- The threads take their steps in the order of the schedule. -/
def run : List ι → System ι S → Option (System ι S)
  | [], self => some self
  | i :: schedule, self => self.step i >>= run schedule

/-- The threads are guarded as often as they hold the lock. -/
structure Sound (system : System ι S) : Prop where
  outside : ∀ i, (∀ depth, system.owner ≠ some (i, depth)) → (system.threads i).Guarded 0
  inside : ∀ i depth, system.owner = some (i, depth) →
    0 < depth ∧ (system.threads i).Guarded depth

/-- Where the system comes when the open section is brought to its end. -/
def settled (self : System ι S) : S × (ι → Program S) :=
  match self.owner with
  | none => (self.shared, self.threads)
  | some (i, depth) =>
      let (s, program) := (self.threads i).finish depth self.shared
      (s, Function.update self.threads i program)

def takeTurn (i : ι) (at_ : S × (ι → Program S)) : S × (ι → Program S) :=
  let (s, program) := (at_.2 i).turn at_.1
  (s, Function.update at_.2 i program)

theorem settled_free {self : System ι S} (free : self.owner = none) :
    self.settled = (self.shared, self.threads) := by
  rw [settled, free]

theorem settled_held {self : System ι S} {i : ι} {depth : Nat}
    (held : self.owner = some (i, depth)) : self.settled =
      (((self.threads i).finish depth self.shared).1,
        Function.update self.threads i ((self.threads i).finish depth self.shared).2) := by
  rw [settled, held]

theorem outside_step {self next : System ι S} {i : ι} (sound : self.Sound)
    (outside : ∀ depth, self.owner ≠ some (i, depth)) (stepped : self.step i = some next) :
    self.owner = none ∧ ∃ rest, self.threads i = .lock rest ∧ rest.Guarded 1 ∧
      next = { self with owner := some (i, 1), threads := Function.update self.threads i rest } := by
  have guarded := sound.outside i outside
  rw [step] at stepped
  generalize program : self.threads i = current at guarded stepped
  cases current with
  | done => cases stepped
  | lock rest =>
      cases owner : self.owner with
      | none =>
          rw [owner] at stepped
          cases stepped
          exact ⟨rfl, rest, rfl, guarded, rfl⟩
      | some holder =>
          obtain ⟨j, depth⟩ := holder
          rw [owner] at stepped
          dsimp only at stepped
          split at stepped
          · rename_i same
            exact absurd (same ▸ owner) (outside depth)
          · cases stepped
  | unlock rest =>
      obtain ⟨_, impossible, _⟩ := guarded
      cases impossible
  | act effect rest => exact absurd guarded.1 (Nat.lt_irrefl 0)

/-- The thread that holds the lock has come closer to the end of its section. -/
theorem inside_step {self next : System ι S} {i : ι} {depth : Nat} (sound : self.Sound)
    (held : self.owner = some (i, depth)) (stepped : self.step i = some next) :
    next.settled = self.settled ∧ ∃ program left, (program.Guarded left ∧
      next.threads = Function.update self.threads i program ∧
      next.owner = if left = 0 then none else some (i, left)) := by
  obtain ⟨positive, guarded⟩ := sound.inside i depth held
  obtain ⟨depth, rfl⟩ := Nat.exists_eq_succ_of_ne_zero (Nat.pos_iff_ne_zero.mp positive)
  rw [step, held] at stepped
  rw [settled_held held]
  generalize program : self.threads i = current at guarded stepped ⊢
  cases current with
  | done => cases stepped
  | lock rest =>
      simp only [if_true, Option.some.injEq] at stepped
      subst stepped
      refine ⟨?_, rest, _, guarded, rfl, rfl⟩
      simp [settled, Program.finish]
  | unlock rest =>
      obtain ⟨outer, same, inner⟩ := guarded
      cases same
      simp only [if_true, Option.some.injEq] at stepped
      subst stepped
      refine ⟨?_, rest, depth, inner, rfl, rfl⟩
      cases depth with
      | zero => simp [settled, Program.finish]
      | succ depth => simp [settled, Program.finish]
  | act effect rest =>
      cases stepped
      refine ⟨?_, rest self.shared, depth + 1, guarded.2 _, rfl, rfl⟩
      simp [settled, Program.finish]

theorem sound_step {self next : System ι S} {i : ι} (sound : self.Sound)
    (stepped : self.step i = some next) :
    next.Sound ∧ (next.settled = self.settled ∨
      (self.owner = none ∧ next.settled = takeTurn i self.settled)) := by
  by_cases outside : ∀ depth, self.owner ≠ some (i, depth)
  · obtain ⟨free, rest, program, guarded, rfl⟩ := outside_step sound outside stepped
    refine ⟨⟨?_, ?_⟩, Or.inr ⟨free, ?_⟩⟩
    · intro j apart
      have other : j ≠ i := fun same => apart 1 (by rw [same])
      dsimp only
      rw [Function.update_of_ne other]
      exact sound.outside j (by rw [free]; exact fun _ => nofun)
    · intro j depth held
      cases held
      refine ⟨Nat.one_pos, ?_⟩
      dsimp only
      rwa [Function.update_self]
    · rw [settled_free free]
      simp [settled, takeTurn, program, Program.turn]
  · push Not at outside
    obtain ⟨depth, held⟩ := outside
    obtain ⟨same, program, left, guarded, threads, owner⟩ := inside_step sound held stepped
    refine ⟨⟨?_, ?_⟩, Or.inl same⟩
    · intro j apart
      rw [threads]
      by_cases own : j = i
      · subst own
        rw [Function.update_self]
        by_cases free : left = 0
        · exact free ▸ guarded
        · exact absurd (owner.trans (if_neg free)) (apart left)
      · rw [Function.update_of_ne own]
        refine sound.outside j fun depth' held' => ?_
        rw [held] at held'
        cases held'
        exact own rfl
    · intro j depth' held'
      rw [owner] at held'
      split at held'
      · cases held'
      · rename_i more
        cases held'
        rw [threads, Function.update_self]
        exact ⟨Nat.pos_of_ne_zero more, guarded⟩

omit [DecidableEq ι] in
theorem Sound.free {system : System ι S} (sound : system.Sound)
    (finished : ∀ i, system.threads i = .done) : system.owner = none := by
  cases owner : system.owner with
  | none => rfl
  | some holder =>
      obtain ⟨positive, guarded⟩ := sound.inside holder.1 holder.2 owner
      rw [finished] at guarded
      exact absurd guarded (Nat.pos_iff_ne_zero.mp positive)

/-- The threads never wait for each other in vain. -/
theorem progress {self : System ι S} (sound : self.Sound) (i : ι)
    (more : self.threads i ≠ .done) : ∃ j next, self.step j = some next := by
  cases owner : self.owner with
  | none =>
      have guarded := sound.outside i (by rw [owner]; exact fun _ => nofun)
      generalize program : self.threads i = current at guarded more
      cases current with
      | done => exact absurd rfl more
      | lock rest => exact ⟨i, _, by rw [step, program, owner]⟩
      | unlock rest =>
          obtain ⟨_, impossible, _⟩ := guarded
          cases impossible
      | act effect rest => exact absurd guarded.1 (Nat.lt_irrefl 0)
  | some holder =>
      obtain ⟨j, depth⟩ := holder
      obtain ⟨positive, guarded⟩ := sound.inside j depth owner
      generalize program : self.threads j = current at guarded
      cases current with
      | done => exact absurd guarded (Nat.pos_iff_ne_zero.mp positive)
      | lock rest => exact ⟨j, _, by rw [step, program, owner]; exact if_pos rfl⟩
      | unlock rest =>
          obtain ⟨outer, rfl, _⟩ := guarded
          exact ⟨j, _, by rw [step, program, owner]; exact if_pos rfl⟩
      | act effect rest => exact ⟨j, _, by rw [step, program]⟩

/-- Every schedule leads where some order of whole sections leads. -/
theorem run_settled {schedule : List ι} {self last : System ι S} (sound : self.Sound)
    (ran : run schedule self = some last) :
    last.Sound ∧ ∃ order : List ι,
      last.settled = order.foldl (fun at_ i => takeTurn i at_) self.settled := by
  induction schedule generalizing self with
  | nil =>
      cases ran
      exact ⟨sound, [], rfl⟩
  | cons i schedule ih =>
      obtain ⟨next, stepped, ran⟩ := Option.bind_eq_some_iff.mp ran
      obtain ⟨sound, moved⟩ := sound_step sound stepped
      obtain ⟨sound, order, settled⟩ := ih sound ran
      refine ⟨sound, ?_⟩
      rcases moved with same | ⟨_, turn⟩
      · exact ⟨order, by rw [settled, same]⟩
      · exact ⟨i :: order, by rw [settled, turn, List.foldl_cons]⟩

end System

/-! ## Operations

A thread is a list of operations, each of them one section or nothing. -/

section

variable {O : Type} (code : O → Program S)

def runOperations (operations : List O) (s : S) : S :=
  operations.foldl (fun s operation => (code operation).run s) s

def ofThread (i : ι) (operations : List (ι × O)) : List O :=
  operations.filterMap fun operation => if operation.1 = i then some operation.2 else none

theorem ofThread_append (i : ι) (front back : List (ι × O)) :
    ofThread i (front ++ back) = ofThread i front ++ ofThread i back :=
  List.filterMap_append

theorem ofThread_own (i : ι) (operations : List O) :
    ofThread i (operations.map fun operation => (i, operation)) = operations := by
  simp [ofThread, List.filterMap_map]

theorem ofThread_other {i j : ι} (other : i ≠ j) (operations : List O) :
    ofThread j (operations.map fun operation => (i, operation)) = [] := by
  simp [ofThread, List.filterMap_map, other]

def System.start (operations : ι → List O) (s : S) : System ι S where
  shared := s
  owner := none
  threads i := Program.inTurn ((operations i).map code)

variable {code} (sections : ∀ operation, (code operation).Section)

include sections

omit [DecidableEq ι] in
theorem start_sound (operations : ι → List O) (s : S) :
    (System.start code operations s).Sound where
  outside i _ := by
    apply Program.guarded_inTurn
    intro program member
    obtain ⟨operation, _, rfl⟩ := List.mem_map.mp member
    exact sections operation
  inside i depth held := by cases held

theorem turn_inTurn (operations : List O) (s : S) : ∃ taken left, operations = taken ++ left ∧
    (Program.inTurn (operations.map code)).turn s =
      (runOperations code taken s, Program.inTurn (left.map code)) := by
  induction operations with
  | nil => exact ⟨[], [], rfl, rfl⟩
  | cons operation operations ih =>
      have kind := sections operation
      rw [List.map_cons, Program.inTurn, List.foldr_cons]
      generalize program : code operation = first at kind ⊢
      cases kind with
      | skip =>
          obtain ⟨taken, left, rfl, turned⟩ := ih
          refine ⟨operation :: taken, left, rfl, ?_⟩
          rw [runOperations, List.foldl_cons, program]
          exact turned
      | locked rest closes =>
          refine ⟨[operation], operations, rfl, ?_⟩
          rw [runOperations, List.foldl_cons, program]
          exact Program.turn_locked closes _ s

theorem turns_operations (order : List ι) (left : ι → List O) (s : S) :
    ∃ (operations : List (ι × O)) (left' : ι → List O),
      (∀ i, left i = ofThread i operations ++ left' i) ∧
      order.foldl (fun at_ i => System.takeTurn i at_)
          (s, fun i => Program.inTurn ((left i).map code)) =
        (runOperations code (operations.map Prod.snd) s,
          fun i => Program.inTurn ((left' i).map code)) := by
  induction order generalizing left s with
  | nil => exact ⟨[], left, fun _ => rfl, rfl⟩
  | cons i order ih =>
      obtain ⟨taken, rest, split_, turned⟩ := turn_inTurn sections (left i) s
      have first : System.takeTurn i (s, fun i => Program.inTurn ((left i).map code)) =
          (runOperations code taken s,
            fun j => Program.inTurn ((Function.update left i rest j).map code)) := by
        rw [System.takeTurn]
        dsimp only
        rw [turned]
        congr 1
        funext j
        by_cases own : j = i
        · subst own
          rw [Function.update_self, Function.update_self]
        · rw [Function.update_of_ne own, Function.update_of_ne own]
      obtain ⟨operations, left', later, folded⟩ := ih (Function.update left i rest) _
      refine ⟨taken.map (fun operation => (i, operation)) ++ operations, left', ?_, ?_⟩
      · intro j
        have rest' := later j
        rw [ofThread_append]
        by_cases own : j = i
        · subst own
          rw [Function.update_self] at rest'
          rw [ofThread_own, List.append_assoc, ← rest', split_]
        · rw [Function.update_of_ne own] at rest'
          rw [ofThread_other (Ne.symm own), List.nil_append, rest']
      · rw [List.foldl_cons, first, folded, List.map_append, List.map_map]
        simp [runOperations, Function.comp_def]

/-- Under any schedule the threads lead, up to the section that is open, where their
operations lead one after the other, each thread's in its own order. -/
theorem scheduled {operations : ι → List O} {s : S} {schedule : List ι} {last : System ι S}
    (ran : System.run schedule (System.start code operations s) = some last) :
    ∃ (performed : List (ι × O)) (left : ι → List O),
      (∀ i, operations i = ofThread i performed ++ left i) ∧
      last.settled = (runOperations code (performed.map Prod.snd) s,
        fun i => Program.inTurn ((left i).map code)) := by
  obtain ⟨_, order, settled⟩ := System.run_settled (start_sound sections operations s) ran
  obtain ⟨performed, left, split_, folded⟩ := turns_operations sections order operations s
  exact ⟨performed, left, split_, settled.trans folded⟩

end

end MutualExclusion
