import Stencil.Proofs.Scan
import Stencil.Proofs.Simulation

/-!
# Reading to the end

Each read of a text takes one of its characters, until nothing is left; and only an error ends a
run before that is known. So a text without errors is read once more than it has characters
(`Lexer.length_lt_reads`).
-/

namespace Stencil
namespace Lexer

variable {s : Lexer} {text : String} {total : Nat}

/-- The source does not fail, and nothing is left of its `total` characters, which is known. -/
def AtEnd (total : Nat) (s : Lexer) : Prop :=
  s.source.failure = none ∧ s.broken = false ∧ s.source.rest = [] ∧ total < s.reads

/-- The source does not fail, and each read has taken one of its `total` characters, until
nothing was left. -/
def OnText (total : Nat) (s : Lexer) : Prop :=
  (s.source.failure = none ∧ s.broken = false ∧ s.reads + s.source.rest.length = total) ∨
    AtEnd total s

/-- Once nothing is left, the next read of the source shows it. -/
theorem atEnd_of_read (sound : s.source.failure = none) (whole : s.broken = false)
    (returned : s.returned = []) (nothing : s.source.rest = []) (known : total ≤ s.reads) :
    s.read.Leaves (fun _ => AtEnd total) fun _ _ => False := by
  have answer : s.source.read = (.ok none, ⟨[], none⟩) := by
    rw [Source.read, sound]
    simp only [nothing, List.head?_nil, List.tail_nil]
  rw [read_ok returned whole answer]
  refine .ok ⟨rfl, whole, rfl, ?_⟩
  rw [reads_read]
  exact Nat.lt_succ_of_le known

theorem AtEnd.read (atEnd : AtEnd total s) :
    s.read.Leaves (fun _ => AtEnd total) fun _ _ => False := by
  obtain ⟨sound, whole, nothing, known⟩ := atEnd
  by_cases returned : s.returned = []
  · exact atEnd_of_read sound whole returned nothing (Nat.le_of_lt known)
  · obtain ⟨c, cs, returned⟩ := List.exists_cons_of_ne_nil returned
    rw [read_returned returned]
    exact .ok ⟨sound, whole, nothing, known⟩

/-- Reading nothing is reading past the end. -/
theorem OnText.read (onText : OnText total s) :
    s.read.Leaves (fun c? s' => OnText total s' ∧ (c? = none → AtEnd total s'))
      fun _ _ => False := by
  have ended : ∀ (c? : Option Char) (s' : Lexer), AtEnd total s' →
      OnText total s' ∧ (c? = none → AtEnd total s') :=
    fun _ _ atEnd => ⟨.inr atEnd, fun _ => atEnd⟩
  rcases onText with ⟨sound, whole, counted⟩ | atEnd
  · by_cases returned : s.returned = []
    · cases rest : s.source.rest with
      | nil =>
        rw [rest, List.length_nil] at counted
        exact (atEnd_of_read sound whole returned rest (Nat.le_of_eq counted.symm)).mono ended
      | cons c cs =>
        have answer : s.source.read = (.ok (some c), ⟨cs, none⟩) := by
          rw [Source.read, sound]
          simp only [rest, List.head?_cons, List.tail_cons]
        rw [read_ok returned whole answer]
        refine .ok ⟨.inl ⟨rfl, whole, ?_⟩, fun never => absurd never (Option.some_ne_none c)⟩
        rw [reads_read, ← counted, rest, List.length_cons]
        show s.reads + 1 + cs.length = s.reads + (cs.length + 1)
        omega
    · obtain ⟨c, cs, returned⟩ := List.exists_cons_of_ne_nil returned
      rw [read_returned returned]
      exact .ok ⟨.inl ⟨sound, whole, counted⟩, fun never => absurd never (Option.some_ne_none c)⟩
  · exact atEnd.read.mono ended

theorem invariant_atEnd (total : Nat) : Invariant (AtEnd total) fun _ _ => False where
  read := AtEnd.read
  giveBack _ atEnd := atEnd
  hold _ atEnd := atEnd
  send _ atEnd := atEnd

theorem invariant_onText (total : Nat) : Invariant (OnText total) fun _ _ => False where
  read onText := onText.read.mono fun _ _ => And.left
  giveBack _ onText := onText
  hold _ onText := onText
  send _ onText := onText

/-- The end of the text has been read where there is no next character. -/
theorem OnText.next_none {s' : Lexer} (onText : OnText total s) (done : s.next = .ok none s') :
    AtEnd total s' := by
  have leaves := onText.read
  rw [next_eq] at done
  generalize s.read = x at leaves done
  cases leaves with
  | @ok c? s₁ holds =>
    cases c? with
    | none =>
      cases done
      exact holds.2 rfl
    | some c => cases done
  | crash never => cases never

/-- A run ends at the end of its text, or with an error. -/
def Complete (total : Nat) (s : Lexer) : Prop :=
  AtEnd total s ∨ ∃ t : Token, .send t ∈ s.actions ∧ t.kind = .error

/-- The last step of a run is at the end of the text, or sends an error. -/
theorem OnText.last_step {m : Mode} {s' : Lexer} (onText : OnText total s)
    (done : step m s = .ok none s') : Complete total s' := by
  cases m with
  | text =>
    obtain ⟨c?, s₁, next, done⟩ := Outcome.andThen_eq_ok.mp done
    split at done
    · cases done
      exact .inl (change_flush.invariant (invariant_atEnd total) (onText.next_none next))
    · obtain ⟨p?, s₂, peek, done⟩ := Outcome.andThen_eq_ok.mp done
      split at done
      · obtain ⟨_, s₃, -, done⟩ := Outcome.andThen_eq_ok.mp done
        cases done
      · cases done
    · obtain ⟨p?, s₂, peek, done⟩ := Outcome.andThen_eq_ok.mp done
      split at done
      · cases done
        exact .inr ⟨_, List.mem_cons_self, rfl⟩
      · cases done
    · cases done
  | tag =>
    obtain ⟨c?, s₁, next, done⟩ := Outcome.andThen_eq_ok.mp done
    split at done
    · cases done
      exact .inl (onText.next_none next)
    · obtain ⟨p?, s₂, peek, done⟩ := Outcome.andThen_eq_ok.mp done
      split at done
      · obtain ⟨_, s₃, -, done⟩ := Outcome.andThen_eq_ok.mp done
        cases done
      · cases done
    · obtain ⟨p?, s₂, peek, done⟩ := Outcome.andThen_eq_ok.mp done
      split at done
      · obtain ⟨_, s₃, -, done⟩ := Outcome.andThen_eq_ok.mp done
        obtain ⟨_, s₄, -, done⟩ := Outcome.andThen_eq_ok.mp done
        cases done
      · cases done
    · split at done
      · cases done
      · cases done
  | word =>
    obtain ⟨_, s₁, took, done⟩ := Outcome.andThen_eq_ok.mp done
    cases done

/-- A lexer that finishes has read its text to the end. -/
theorem OnText.finish {m : Mode} {s' : Lexer} (onText : OnText total s)
    (done : finish m s = .ok () s') : Complete total s' := by
  induction bound : 2 * s.unread + m.weight using Nat.strongRecOn generalizing m s with
  | ind n ih =>
    rw [finish_eq] at done
    obtain ⟨m?, s₁, step, done⟩ := Outcome.andThen_eq_ok.mp done
    cases m? with
    | none =>
      cases done
      exact onText.last_step step
    | some m' =>
      have onText' := ((uniform_step m).invariant (invariant_onText total) onText).of_ok step
      exact ih _ (bound ▸ step_decreases step) onText' done rfl

/-- A text without errors is read to its end, which takes a read of its own. -/
theorem length_lt_reads (clean : ∀ t ∈ (run (.ofText text)).body, t.kind ≠ .error) :
    text.toList.length < (run (.ofText text)).reads := by
  have crash := (run_ofText text).2
  have start : OnText text.toList.length { source := .ofText text } :=
    .inl ⟨rfl, rfl, Nat.zero_add _⟩
  rw [reads_run]
  rw [Lexing.body, steps_run] at clean
  rw [run_eq] at crash
  cases done : Lexer.finish .text { source := .ofText text } with
  | ok a s =>
    rw [done, Outcome.lexer] at clean
    rcases start.finish done with ⟨-, -, -, known⟩ | ⟨t, sent, error⟩
    · exact known
    · refine absurd error (clean t (List.mem_filterMap.mpr ⟨.send t, ?_, rfl⟩))
      exact List.mem_reverse.mpr sent
  | crash fault s =>
    rw [done] at crash
    cases crash

end Lexer
end Stencil
