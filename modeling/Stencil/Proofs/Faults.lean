import Stencil.Proofs.Scan
import Stencil.Proofs.Simulation

/-!
# Reads that fail

A lexer whose read number `n` fails goes on like one whose reads do not fail, up to that read. If
it never gets there, the runs are the same (`Lexer.run_failingAt_of_le`). If it does, the same
actions have come before the read; a crash ends the run there and then (`Lexer.run_crash`), and a
source that cannot be read further has the lexer send an error and read no more
(`Lexer.run_unreadable`).

Both runs are related until they part (`Lexer.simulation_twins`). What the failing run does at the
failing read is an invariant of that run alone.
-/

namespace Stencil

/-- The next `n` reads of two sources have the same answers, and none of them fails. -/
def Source.Agrees : Nat → Source → Source → Prop
  | 0, _, _ => True
  | n + 1, σ, τ =>
    ∃ c?, σ.read.1 = .ok c? ∧ τ.read.1 = .ok c? ∧ Agrees n σ.read.2 τ.read.2

theorem Source.agrees_failing (cs : List Char) (n : Nat) (fault : Fault) :
    Agrees n ⟨cs, none⟩ ⟨cs, some (n, fault)⟩ := by
  induction n generalizing cs with
  | zero => exact trivial
  | succ n ih => exact ⟨cs.head?, rfl, rfl, ih cs.tail⟩

/-- The actions before read number `n`, counted from zero. -/
def Action.upTo : Nat → List Action → List Action
  | _, [] => []
  | 0, .read :: _ => []
  | n + 1, .read :: actions => .read :: upTo n actions
  | n, action :: actions => action :: upTo n actions

/-- A list of actions is cut right before read number `n`. -/
theorem Action.upTo_append {n : Nat} {before : List Action} (reads : before.count .read = n)
    (after : List Action) : upTo n (before ++ .read :: after) = before := by
  subst reads
  induction before with
  | nil => rfl
  | cons action before ih =>
    cases action with
    | read => rw [List.count_cons_self, List.cons_append, upTo, ih]
    | send t =>
      have other : Action.send t ≠ .read := nofun
      rw [List.count_cons_of_ne other, List.cons_append, upTo, ih]
      all_goals nofun
    | close =>
      have other : Action.close ≠ .read := nofun
      rw [List.count_cons_of_ne other, List.cons_append, upTo, ih]
      all_goals nofun

theorem Action.upTo_prefix (n : Nat) (actions : List Action) : upTo n actions <+: actions := by
  fun_induction upTo n actions with
  | case1 => exact List.prefix_refl _
  | case2 => exact List.nil_prefix
  | case3 n actions ih => exact (List.prefix_cons_inj _).mpr ih
  | case4 n action actions _ _ ih => exact (List.prefix_cons_inj _).mpr ih

/-- The tokens that a run sends before its read number `n`. -/
def Lexing.sentBefore (l : Lexing) (n : Nat) : List Token :=
  (Action.upTo n l.steps).filterMap (·.token?)

theorem Lexing.sentBefore_prefix (l : Lexing) (n : Nat) : l.sentBefore n <+: l.body :=
  (Action.upTo_prefix n l.steps).filterMap _

namespace Lexer

/-! ## Two runs up to a read -/

variable {s : Lexer} {fault : Fault}

/-- Two lexers that differ in their sources alone, which agree up to read number `n`. -/
def Twins (n : Nat) (s t : Lexer) : Prop :=
  ∃ left source, t = { s with source } ∧ s.source.Agrees left source ∧ s.reads + left = n

/-- Two lexers that have done read number `n`, after the same actions. -/
def Parted (n : Nat) (s t : Lexer) : Prop :=
  ∃ before : List Action, before.count .read = n ∧
    .read :: before <:+ s.actions ∧ .read :: before <:+ t.actions

/-- Twins read alike, and part where read number `n` is done. -/
theorem Twins.read {n : Nat} {s t : Lexer} (twins : Twins n s t) :
    Matched (Twins n) (fun _ _ _ => False) (Parted n) s.read t.read := by
  obtain ⟨left, source, rfl, agrees, counted⟩ := twins
  by_cases returned : s.returned = []
  · rcases Bool.eq_false_or_eq_true s.broken with broken | whole
    · rw [read_broken returned broken, read_broken (s := { s with source }) returned broken]
      exact .ok ⟨left, source, rfl, agrees, counted⟩
    cases left with
    | zero =>
      refine .apart ⟨s.actions, counted, read_suffix returned whole, ?_⟩
      exact read_suffix (s := { s with source }) returned whole
    | succ left =>
      obtain ⟨c?, answer, answer', agrees⟩ := agrees
      rw [read_ok (s := s) returned whole (Prod.ext answer rfl),
        read_ok (s := { s with source }) returned whole (Prod.ext answer' rfl)]
      refine .ok ⟨left, _, rfl, agrees, ?_⟩
      rw [reads_read]
      omega
  · obtain ⟨c, cs, returned⟩ := List.exists_cons_of_ne_nil returned
    rw [read_returned returned, read_returned (s := { s with source }) returned]
    exact .ok ⟨left, source, rfl, agrees, counted⟩

/-- Twins stay twins, or part at the read where their sources do. -/
theorem simulation_twins (n : Nat) :
    Simulation (Twins n) (fun _ _ _ => False) (Parted n) where
  returned := fun ⟨_, _, same, _⟩ => by rw [same]
  pending := fun ⟨_, _, same, _⟩ => by rw [same]
  read := Twins.read
  giveBack cs := fun ⟨left, source, same, agrees, counted⟩ =>
    ⟨left, source, by rw [same], agrees, counted⟩
  hold cs := fun ⟨left, source, same, agrees, counted⟩ =>
    ⟨left, source, by rw [same], agrees, counted⟩
  send token := fun ⟨left, source, same, agrees, counted⟩ =>
    ⟨left, source, by rw [same]; rfl, agrees, by rw [← counted]; rfl⟩
  apart := fun ⟨before, counted, first, second⟩ grows grows' =>
    ⟨before, counted, first.trans grows, second.trans grows'⟩

/-! ## The failing read -/

/-- Read number `n` is still to come, and will fail. -/
def Armed (n : Nat) (fault : Fault) (s : Lexer) : Prop :=
  s.broken = false ∧ ∃ left, s.source.failure = some (left, fault) ∧ s.reads + left = n

/-- The last action was read number `n`. -/
def StoppedAt (n : Nat) (s : Lexer) : Prop :=
  ∃ before : List Action, before.count .read = n ∧ s.actions = .read :: before

/-- Read number `n` failed, which was sent, and the source was not asked again. -/
def GaveUpAt (n : Nat) (message : String) (s : Lexer) : Prop :=
  s.broken = true ∧ ∃ before after : List Action, before.count .read = n ∧
    after.count .read = 0 ∧ s.actions = after ++ .send (readFailure message) :: .read :: before

variable {n : Nat} {label message : String}

theorem Armed.start (text : String) (n : Nat) (fault : Fault) :
    Armed n fault { source := .failingAt n fault text } :=
  ⟨rfl, n, rfl, Nat.zero_add n⟩

theorem Armed.giveBack (armed : Armed n fault s) (cs : List Char) :
    Armed n fault { s with returned := cs } :=
  armed

theorem Armed.hold (armed : Armed n fault s) (cs : List Char) :
    Armed n fault { s with pending := cs } :=
  armed

theorem Armed.send (armed : Armed n fault s) (token : Token) : Armed n fault (s.send token) :=
  armed

/-- Either the read is not the one that fails, or it is. -/
theorem Armed.read (armed : Armed n fault s) :
    (∃ c? s', s.read = .ok c? s' ∧ Armed n fault s') ∨
      (s.returned = [] ∧ s.reads = n ∧ ∃ source, s.source.read = (.error fault, source)) := by
  obtain ⟨whole, left, failure, counted⟩ := armed
  by_cases returned : s.returned = []
  · cases left with
    | zero =>
      exact .inr ⟨returned, counted, { s.source with failure := none }, by
        rw [Source.read, failure]⟩
    | succ left =>
      have answer : s.source.read =
          (.ok s.source.rest.head?, ⟨s.source.rest.tail, some (left, fault)⟩) := by
        rw [Source.read, failure]
      refine .inl ⟨_, _, read_ok returned whole answer, whole, left, rfl, ?_⟩
      rw [reads_read]
      omega
  · obtain ⟨c, cs, returned⟩ := List.exists_cons_of_ne_nil returned
    exact .inl ⟨_, _, read_returned returned, whole, left, failure, counted⟩

/-- A lexer that is to crash stays so until the read at which it does, and stops there. -/
theorem invariant_crash (n : Nat) (label message : String) :
    Invariant (Armed n (.crash label message))
      fun fault s => fault = .crash label message ∧ StoppedAt n s where
  read armed := by
    rcases armed.read with ⟨_, _, done, armed'⟩ | ⟨returned, counted, source, answer⟩
    · rw [done]
      exact .ok armed'
    · rw [read_crash returned armed.1 answer]
      exact .crash ⟨rfl, _, counted, rfl⟩
  giveBack cs armed := armed.giveBack cs
  hold cs armed := armed.hold cs
  send token armed := armed.send token

/-- A broken lexer never asks its source. -/
theorem GaveUpAt.read (gaveUp : GaveUpAt n message s) :
    ∃ c? s', s.read = .ok c? s' ∧ GaveUpAt n message s' := by
  by_cases returned : s.returned = []
  · exact ⟨_, _, read_broken returned gaveUp.1, gaveUp⟩
  · obtain ⟨c, cs, returned⟩ := List.exists_cons_of_ne_nil returned
    exact ⟨_, _, read_returned returned, gaveUp⟩

theorem GaveUpAt.send (gaveUp : GaveUpAt n message s) (token : Token) :
    GaveUpAt n message (s.send token) := by
  obtain ⟨broken, before, after, counted, none, whole⟩ := gaveUp
  have other : Action.send token ≠ .read := nofun
  refine ⟨broken, before, .send token :: after, counted, ?_, ?_⟩
  · rw [List.count_cons_of_ne other, none]
  · rw [Lexer.send, whole, List.cons_append]

/-- A lexer whose source will be unreadable stays so until that read, and gives up there. -/
theorem invariant_unreadable (n : Nat) (message : String) :
    Invariant (fun s => Armed n (.unreadable message) s ∨ GaveUpAt n message s)
      fun _ _ => False where
  read holds := by
    rcases holds with armed | gaveUp
    · rcases armed.read with ⟨_, _, done, armed'⟩ | ⟨returned, counted, source, answer⟩
      · rw [done]
        exact .ok (.inl armed')
      · rw [read_unreadable returned armed.1 answer]
        exact .ok (.inr ⟨rfl, _, [], counted, rfl, rfl⟩)
    · obtain ⟨_, _, done, gaveUp'⟩ := gaveUp.read
      rw [done]
      exact .ok (.inr gaveUp')
  giveBack cs holds := holds.imp (·.giveBack cs) id
  hold cs holds := holds.imp (·.hold cs) id
  send token holds := holds.imp (·.send token) (·.send token)

/-! ## Runs -/

variable {text : String}

/-- Runs on sources that agree up to read number `n` go on alike, or part at that read. -/
theorem matched_of_agrees {σ τ : Source} (agrees : σ.Agrees n τ) :
    Matched (Twins n) (fun _ _ _ => False) (Parted n) (finish .text { source := σ })
      (finish .text { source := τ }) :=
  (uniform_finish .text).keeps (simulation_twins n) ⟨n, τ, rfl, agrees, Nat.zero_add n⟩

/-- A read that is not performed cannot fail. -/
theorem run_failingAt_of_le (fault : Fault) (enough : (run (.ofText text)).reads ≤ n) :
    run (.failingAt n fault text) = run (.ofText text) := by
  have matched := matched_of_agrees (Source.agrees_failing text.toList n fault)
  rw [reads_run, Source.ofText] at enough
  rw [run_eq, run_eq, Source.failingAt, Source.ofText]
  generalize finish .text { source := ⟨text.toList, none⟩ } = x at matched enough ⊢
  generalize finish .text { source := ⟨text.toList, some (n, fault)⟩ } = y at matched ⊢
  cases matched with
  | ok twins =>
    obtain ⟨left, source, rfl, -⟩ := twins
    rfl
  | crash never => cases never
  | apart parted =>
    obtain ⟨before, counted, grows, -⟩ := parted
    have more := grows.sublist.count_le .read
    rw [List.count_cons_self, counted] at more
    rw [reads] at enough
    omega

theorem upTo_of_suffix {before actions : List Action} (suffix : .read :: before <:+ actions)
    (counted : before.count .read = n) : Action.upTo n actions.reverse = before.reverse := by
  obtain ⟨after, rfl⟩ := suffix
  rw [List.reverse_append, List.reverse_cons, List.append_assoc, List.singleton_append]
  exact Action.upTo_append (by rw [List.count_reverse, counted]) _

/-- What comes before a read that is performed depends on the earlier reads alone. -/
theorem upTo_of_agrees {σ τ : Source} (agrees : σ.Agrees n τ) (performed : n < (run σ).reads) :
    Action.upTo n (run τ).steps = Action.upTo n (run σ).steps ∧ n < (run τ).reads := by
  have matched := matched_of_agrees agrees
  rw [reads_run] at performed ⊢
  rw [steps_run, steps_run]
  generalize finish .text { source := σ } = x at matched performed ⊢
  generalize finish .text { source := τ } = y at matched ⊢
  cases matched with
  | ok twins =>
    obtain ⟨left, source, rfl, -, counted⟩ := twins
    simp only [Outcome.lexer] at performed
    omega
  | crash never => cases never
  | apart parted =>
    obtain ⟨before, counted, suffix, suffix'⟩ := parted
    rw [upTo_of_suffix suffix counted, upTo_of_suffix suffix' counted]
    have more := suffix'.sublist.count_le .read
    rw [List.count_cons_self, counted] at more
    exact ⟨rfl, more⟩

/-- A read that is performed comes after the same actions in both runs. -/
theorem upTo_failingAt (fault : Fault) (performed : n < (run (.ofText text)).reads) :
    Action.upTo n (run (.failingAt n fault text)).steps =
        Action.upTo n (run (.ofText text)).steps ∧
      n < (run (.failingAt n fault text)).reads :=
  upTo_of_agrees (Source.agrees_failing text.toList n fault) performed

/-- A crash ends the run with the read that crashed. -/
theorem run_crash (label message : String) (performed : n < (run (.ofText text)).reads) :
    run (.failingAt n (.crash label message) text) =
      ⟨Action.upTo n (run (.ofText text)).steps ++ [.read], some (.crash label message)⟩ := by
  obtain ⟨same, performed'⟩ := upTo_failingAt (.crash label message) performed
  have leaves := (uniform_finish .text).invariant (invariant_crash n label message) (.start text ..)
  rw [reads_run] at performed'
  rw [← same, steps_run, run_eq]
  generalize finish .text { source := .failingAt n (.crash label message) text } = y
    at leaves performed' ⊢
  cases leaves with
  | ok armed =>
    obtain ⟨-, left, -, counted⟩ := armed
    rw [Outcome.lexer] at performed'
    omega
  | crash stopped =>
    obtain ⟨rfl, before, counted, whole⟩ := stopped
    have suffix := List.suffix_refl (.read :: before)
    rw [Outcome.lexing, Outcome.lexer, whole, upTo_of_suffix suffix counted, List.reverse_cons]

/-- A source that cannot be read further has the lexer send an error right after the read, and
does not stop it. -/
theorem run_unreadable (message : String) (performed : n < (run (.ofText text)).reads) :
    ∃ after : List Action, after.count .read = 0 ∧
      run (.failingAt n (.unreadable message) text) =
        ⟨Action.upTo n (run (.ofText text)).steps ++
          .read :: .send (readFailure message) :: after, none⟩ := by
  obtain ⟨same, performed'⟩ := upTo_failingAt (.unreadable message) performed
  have leaves := (uniform_finish .text).invariant (invariant_unreadable n message)
    (.inl (.start text ..))
  rw [reads_run] at performed'
  rw [← same, steps_run, run_eq]
  generalize finish .text { source := .failingAt n (.unreadable message) text } = y
    at leaves performed' ⊢
  cases leaves with
  | ok holds =>
    rcases holds with ⟨-, left, -, counted⟩ | ⟨-, before, after, counted, none, whole⟩
    · rw [Outcome.lexer] at performed'
      omega
    · refine ⟨after.reverse, by rw [List.count_reverse, none], ?_⟩
      have suffix : .read :: before <:+ after ++ .send (readFailure message) :: .read :: before :=
        (List.suffix_cons _ _).trans (List.suffix_append _ _)
      rw [Outcome.lexing, Outcome.lexer, whole, upTo_of_suffix suffix counted]
      simp
  | crash never => cases never

end Lexer
end Stencil
