import Stencil.Token.Lexing

/-!
# Relations that scanning keeps

All that the lexer learns of its source it learns by `Lexer.read`, and all that it does besides
is to keep characters, to give some back and to send tokens. So two lexers that start alike go on
alike for as long as their reads have like answers. `Lexer.Simulation` says what a relation
between two lexers needs so that scanning keeps it, and `Lexer.Uniform` that an operation keeps
every such relation. Each piece of scanning is uniform, up to the whole run
(`Lexer.uniform_finish`), so a statement on two runs is proved by looking at reads alone. A
relation of a lexer to itself is an invariant (`Lexer.Invariant`).

Two runs may part when their reads are answered differently. What is known of them then is a
relation that any further actions keep.
-/

namespace Stencil
namespace Lexer

open Text

variable {α β : Type}

/-- The lexer that a piece of scanning leaves. -/
def Outcome.lexer : Outcome α → Lexer
  | ok _ s => s
  | crash _ s => s

/-- How two outcomes compare: they are the same value and leave lexers that `R` relates, or they
are the same crash and leave lexers that `F` relates, or the runs have parted. -/
inductive Matched (R : Lexer → Lexer → Prop) (F : Fault → Lexer → Lexer → Prop)
    (E : Lexer → Lexer → Prop) : Outcome α → Outcome α → Prop
  | ok {a : α} {s t : Lexer} (related : R s t) : Matched R F E (.ok a s) (.ok a t)
  | crash {fault : Fault} {s t : Lexer} (related : F fault s t) :
      Matched R F E (.crash fault s) (.crash fault t)
  | apart {x y : Outcome α} (parted : E x.lexer y.lexer) : Matched R F E x y

/-- Relations that scanning keeps: `R` between lexers that go on alike, `F` between those that
crash alike, and `E` between those that have parted. -/
structure Simulation (R : Lexer → Lexer → Prop) (F : Fault → Lexer → Lexer → Prop)
    (E : Lexer → Lexer → Prop) : Prop where
  returned {s t} : R s t → s.returned = t.returned
  pending {s t} : R s t → s.pending = t.pending
  read {s t} : R s t → Matched R F E s.read t.read
  giveBack {s t} (cs : List Char) : R s t → R { s with returned := cs } { t with returned := cs }
  hold {s t} (cs : List Char) : R s t → R { s with pending := cs } { t with pending := cs }
  send {s t} (token : Token) : R s t → R (s.send token) (t.send token)
  apart {s s' t t'} : E s t → s.actions <:+ s'.actions → t.actions <:+ t'.actions → E s' t'

/-- An operation that only adds actions, and keeps what scanning keeps. -/
structure Uniform (op : Lexer → Outcome α) : Prop where
  grows (s : Lexer) : s.actions <:+ (op s).lexer.actions
  keeps {R F E s t} (sim : Simulation R F E) (related : R s t) : Matched R F E (op s) (op t)

/-- An operation that reads nothing and cannot fail, and is uniform otherwise. -/
structure Change (op : Lexer → Lexer) : Prop where
  grows (s : Lexer) : s.actions <:+ (op s).actions
  keeps {R F E s t} (sim : Simulation R F E) (related : R s t) : R (op s) (op t)

variable {R : Lexer → Lexer → Prop} {F : Fault → Lexer → Lexer → Prop}
  {E : Lexer → Lexer → Prop} {s t : Lexer}

/-! ## Putting operations together -/

theorem Outcome.grows_andThen {x : Outcome α} {f : α → Lexer → Outcome β} {actions : List Action}
    (first : actions <:+ x.lexer.actions)
    (rest : ∀ a s, x = .ok a s → s.actions <:+ (f a s).lexer.actions) :
    actions <:+ (x.andThen f).lexer.actions := by
  cases x with
  | ok a s => exact first.trans (rest a s rfl)
  | crash => exact first

/-- Matched outcomes stay matched, if what is done next keeps the relation. -/
theorem Matched.andThen {x y : Outcome α} {f : α → Lexer → Outcome β} (sim : Simulation R F E)
    (first : Matched R F E x y) (grows : ∀ a s, s.actions <:+ (f a s).lexer.actions)
    (rest : ∀ a s t, x = .ok a s → y = .ok a t → R s t → Matched R F E (f a s) (f a t)) :
    Matched R F E (x.andThen f) (y.andThen f) := by
  cases first with
  | ok related => exact rest _ _ _ rfl rfl related
  | crash related => exact .crash related
  | apart parted =>
    exact .apart (sim.apart parted
      (Outcome.grows_andThen (List.suffix_refl _) fun a s _ => grows a s)
      (Outcome.grows_andThen (List.suffix_refl _) fun a s _ => grows a s))

theorem Uniform.andThen {op : Lexer → Outcome α} {f : α → Lexer → Outcome β} (first : Uniform op)
    (rest : ∀ a, Uniform (f a)) : Uniform fun s => (op s).andThen f where
  grows s := Outcome.grows_andThen (first.grows s) fun a s _ => (rest a).grows s
  keeps sim related := (first.keeps sim related).andThen sim (fun a => (rest a).grows)
    fun a _ _ _ _ related => (rest a).keeps sim related

theorem Change.ok {op : Lexer → Lexer} (change : Change op) (a : α) :
    Uniform fun s => .ok a (op s) where
  grows := change.grows
  keeps sim related := .ok (change.keeps sim related)

theorem Change.comp {op op' : Lexer → Lexer} (change' : Change op') (change : Change op) :
    Change fun s => op' (op s) where
  grows s := (change.grows s).trans (change'.grows _)
  keeps sim related := change'.keeps sim (change.keeps sim related)

theorem Uniform.congr {op op' : Lexer → Outcome α} (uniform : Uniform op)
    (same : ∀ s, op' s = op s) : Uniform op' := by
  rw [funext same]
  exact uniform

/-- An operation that repeats itself, each time on a smaller lexer, is uniform if what it does
each time is. -/
theorem Uniform.of_recursion {ι : Type} {op : ι → Lexer → Outcome β} {first : ι → Lexer → Outcome α}
    {rest : ι → α → Lexer → Outcome β} (size : ι → Lexer → Nat)
    (eq : ∀ i s, op i s = (first i s).andThen (rest i)) (uniform : ∀ i, Uniform (first i))
    (tail : ∀ i a, (∃ j change, Change change ∧ (rest i a = fun s => op j (change s)) ∧
        ∀ s s', first i s = .ok a s' → size j (change s') < size i s) ∨ Uniform (rest i a))
    (i : ι) : Uniform (op i) := by
  have grows : ∀ i s, s.actions <:+ (op i s).lexer.actions := by
    intro i s
    induction bound : size i s using Nat.strongRecOn generalizing i s with
    | ind n ih =>
      rw [eq]
      refine Outcome.grows_andThen ((uniform i).grows s) fun a s' done => ?_
      rcases tail i a with ⟨j, change, changes, again, smaller⟩ | last
      · rw [again]
        exact (changes.grows s').trans (ih _ (bound ▸ smaller s s' done) j _ rfl)
      · exact last.grows s'
  refine ⟨grows i, fun {R F E s t} sim related => ?_⟩
  induction bound : size i s using Nat.strongRecOn generalizing i s t with
  | ind n ih =>
    rw [eq, eq]
    refine ((uniform i).keeps sim related).andThen sim (fun a s' => ?_)
      fun a s' t' done _ related => ?_
    · rcases tail i a with ⟨j, change, changes, again, -⟩ | last
      · rw [again]
        exact (changes.grows s').trans (grows j _)
      · exact last.grows s'
    · rcases tail i a with ⟨j, change, changes, again, smaller⟩ | last
      · rw [again]
        exact ih _ (bound ▸ smaller s s' done) j (changes.keeps sim related) rfl
      · exact last.keeps sim related

theorem change_id : Change fun s => s where
  grows _ := List.suffix_refl _
  keeps _ related := related

theorem change_giveBack (c : Char) : Change fun s => { s with returned := c :: s.returned } where
  grows _ := List.suffix_refl _
  keeps {R F E s t} sim related := by
    rw [sim.returned related]
    exact sim.giveBack _ related

theorem change_hold (c : Char) : Change fun s => { s with pending := c :: s.pending } where
  grows _ := List.suffix_refl _
  keeps {R F E s t} sim related := by
    rw [sim.pending related]
    exact sim.hold _ related

theorem change_send (token : Token) : Change (send token) where
  grows _ := List.suffix_cons _ _
  keeps sim related := sim.send token related

theorem change_discard (n : Nat) : Change (discard n) where
  grows _ := List.suffix_refl _
  keeps {R F E s t} sim related := by
    rw [discard, sim.pending related]
    exact sim.hold _ related

theorem change_discard_all : Change fun s => s.discard s.pending.length where
  grows _ := List.suffix_refl _
  keeps {R F E s t} sim related := by
    rw [sim.pending related]
    exact (change_discard _).keeps sim related

theorem change_emit (token : String → Token) : Change (emit token) where
  grows _ := List.suffix_cons _ _
  keeps {R F E s t} sim related := by
    rw [emit, pendingText, sim.pending related]
    exact sim.send _ (sim.hold [] related)

theorem change_flush : Change flush where
  grows s := by
    unfold flush
    split
    · exact List.suffix_refl _
    · exact (change_emit _).grows s
  keeps {R F E s t} sim related := by
    unfold flush
    rw [sim.pending related]
    split
    · exact related
    · exact (change_emit _).keeps sim related

/-! ## Reading -/

/-- The number of reads so far. -/
def reads (s : Lexer) : Nat :=
  s.actions.count .read

theorem reads_read (s : Lexer) (source : Source) :
    Lexer.reads { s with source, actions := .read :: s.actions } = s.reads + 1 :=
  List.count_cons_self

/-- What is sent when the source cannot be read further. -/
def readFailure (message : String) : Token :=
  ⟨.error, "lex error in next: " ++ message⟩

variable {c? : Option Char} {source : Source}

theorem read_returned {c : Char} {cs : List Char} (returned : s.returned = c :: cs) :
    s.read = .ok (some c) { s with returned := cs } := by
  unfold Lexer.read
  simp only [returned]

theorem read_broken (returned : s.returned = []) (broken : s.broken = true) :
    s.read = .ok none s := by
  unfold Lexer.read
  simp only [returned, broken, if_true]

theorem read_ok (returned : s.returned = []) (whole : s.broken = false)
    (answer : s.source.read = (.ok c?, source)) :
    s.read = .ok c? { s with source, actions := .read :: s.actions } := by
  unfold Lexer.read
  simp only [returned, whole, answer, Bool.false_eq_true, if_false]

theorem read_crash {label message : String} (returned : s.returned = []) (whole : s.broken = false)
    (answer : s.source.read = (.error (.crash label message), source)) :
    s.read = .crash (.crash label message) { s with source, actions := .read :: s.actions } := by
  unfold Lexer.read
  simp only [returned, whole, answer, Bool.false_eq_true, if_false]

theorem read_unreadable {message : String} (returned : s.returned = []) (whole : s.broken = false)
    (answer : s.source.read = (.error (.unreadable message), source)) :
    s.read = .ok none
      { s with
        source, broken := true
        actions := .send (readFailure message) :: .read :: s.actions } := by
  unfold Lexer.read
  simp only [returned, whole, answer, Bool.false_eq_true, if_false]
  rfl

/-- A lexer that has been given nothing back asks its source, whatever the answer is. -/
theorem read_suffix (returned : s.returned = []) (whole : s.broken = false) :
    .read :: s.actions <:+ s.read.lexer.actions := by
  rcases answer : s.source.read with ⟨(⟨message⟩ | ⟨label, message⟩) | c?, source⟩
  · rw [read_unreadable returned whole answer]
    exact List.suffix_cons _ _
  · rw [read_crash returned whole answer]
    exact List.suffix_refl _
  · rw [read_ok returned whole answer]
    exact List.suffix_refl _

theorem grows_read (s : Lexer) : s.actions <:+ s.read.lexer.actions := by
  by_cases returned : s.returned = []
  · rcases Bool.eq_false_or_eq_true s.broken with broken | whole
    · rw [read_broken returned broken]
      exact List.suffix_refl _
    · exact (List.suffix_cons _ _).trans (read_suffix returned whole)
  · obtain ⟨c, cs, returned⟩ := List.exists_cons_of_ne_nil returned
    rw [read_returned returned]
    exact List.suffix_refl _

theorem uniform_read : Uniform read where
  grows := grows_read
  keeps sim related := sim.read related

theorem next_eq (s : Lexer) : s.next = s.read.andThen fun
    | some c, s => .ok (some c) { s with pending := c :: s.pending }
    | none, s => .ok none s := by
  unfold next
  rcases s.read with ⟨_ | c, s⟩ | _ <;> rfl

theorem peek_eq (s : Lexer) : s.peek = s.read.andThen fun
    | some c, s => .ok (some c) { s with returned := c :: s.returned }
    | none, s => .ok none s := by
  unfold peek
  rcases s.read with ⟨_ | c, s⟩ | _ <;> rfl

theorem uniform_next : Uniform next := by
  rw [funext next_eq]
  refine uniform_read.andThen fun c? => ?_
  cases c? with
  | none => exact change_id.ok _
  | some c => exact (change_hold c).ok _

theorem uniform_peek : Uniform peek := by
  rw [funext peek_eq]
  refine uniform_read.andThen fun c? => ?_
  cases c? with
  | none => exact change_id.ok _
  | some c => exact (change_giveBack c).ok _

theorem takeWord_eq (s : Lexer) : s.takeWord = s.read.andThen fun
    | some c, s =>
      if continuesWord c then takeWord { s with pending := c :: s.pending }
      else .ok () { s with returned := c :: s.returned }
    | none, s => .ok () s := by
  rw [takeWord]
  rcases s.read with ⟨_ | c, s⟩ | _ <;> rfl

theorem skipLine_eq (s : Lexer) : s.skipLine = s.read.andThen fun
    | some c, s =>
      if endsLine c then .ok () { s with returned := c :: s.returned } else skipLine s
    | none, s => .ok () s := by
  rw [skipLine]
  rcases s.read with ⟨_ | c, s⟩ | _ <;> rfl

theorem uniform_takeWord : Uniform takeWord := by
  refine .of_recursion (fun _ => unread) (fun _ => takeWord_eq) (fun _ => uniform_read)
    (fun _ c? => ?_) ()
  cases c? with
  | none => exact .inr (change_id.ok _)
  | some c =>
    by_cases more : continuesWord c
    · refine .inl ⟨(), _, change_hold c, funext fun _ => if_pos more, fun s s' read => ?_⟩
      have := unread_of_read_some read
      simp only [unread] at *
      omega
    · refine .inr ?_
      simp only [more, Bool.false_eq_true, if_false]
      exact (change_giveBack c).ok ()

theorem uniform_skipLine : Uniform skipLine := by
  refine .of_recursion (fun _ => unread) (fun _ => skipLine_eq) (fun _ => uniform_read)
    (fun _ c? => ?_) ()
  cases c? with
  | none => exact .inr (change_id.ok _)
  | some c =>
    by_cases stops : endsLine c
    · refine .inr ?_
      simp only [stops, if_true]
      exact (change_giveBack c).ok ()
    · refine .inl ⟨(), _, change_id, funext fun _ => if_neg stops, fun s s' read => ?_⟩
      have := unread_of_read_some read
      omega

/-! ## Steps -/

/-- What comes after a look at the next character, if a second brace alone makes a difference. -/
theorem uniform_peek_pair {f : Option Char → Lexer → Outcome α} {other : Lexer → Outcome α}
    (brace : Char) (pair : Uniform (f (some brace))) (uniform : Uniform other)
    (single : ∀ c? s, c? ≠ some brace → f c? s = other s) :
    Uniform fun s => s.peek.andThen f := by
  refine uniform_peek.andThen fun c? => ?_
  by_cases same : c? = some brace
  · rw [same]
    exact pair
  · exact uniform.congr fun s => single c? s same

/-- A step in text keeps whatever reading, sending and giving back keep. -/
theorem uniform_textStep : Uniform textStep := by
  refine uniform_next.andThen fun c? => ?_
  by_cases left : c? = some '{'
  · subst left
    refine uniform_peek_pair '{' ?_ (change_id.ok (some .text)) fun c? s single => ?_
    · exact uniform_next.andThen fun _ =>
        ((change_send _).comp (change_flush.comp (change_discard 2))).ok _
    · split <;> simp_all
  by_cases right : c? = some '}'
  · subst right
    refine uniform_peek_pair '}' ?_ (change_id.ok (some .text)) fun c? s single => ?_
    · exact (change_send _).ok _
    · split <;> simp_all
  cases c? with
  | none => exact change_flush.ok _
  | some c =>
    refine (change_id.ok (some .text)).congr fun s => ?_
    split <;> simp_all

/-- A step in a tag keeps whatever reading, sending and giving back keep. -/
theorem uniform_tagStep : Uniform tagStep := by
  refine uniform_next.andThen fun c? => ?_
  by_cases right : c? = some '}'
  · subst right
    refine uniform_peek_pair '}' ?_ ((change_discard 1).ok (some .tag)) fun c? s single => ?_
    · exact uniform_next.andThen fun _ => (change_emit _).ok _
    · split <;> simp_all
  by_cases left : c? = some '{'
  · subst left
    refine uniform_peek_pair '{' ?_ ((change_discard 1).ok (some .tag)) fun c? s single => ?_
    · have skips : Uniform fun s =>
          (s.sendError "unexpected left meta in lexTagBody").skipLine :=
        ((change_send _).ok ()).andThen fun _ => uniform_skipLine
      exact skips.andThen fun _ => uniform_next.andThen fun _ => change_discard_all.ok _
    · split <;> simp_all
  cases c? with
  | none => exact change_id.ok _
  | some c =>
    by_cases letter : isLetter c
    · refine (change_id.ok (some .word)).congr fun s => ?_
      split <;> simp_all
    · refine ((change_discard 1).ok (some .tag)).congr fun s => ?_
      split <;> simp_all

theorem uniform_wordStep : Uniform wordStep :=
  uniform_takeWord.andThen fun _ => (change_emit _).ok _

theorem uniform_step (m : Mode) : Uniform (step m) := by
  cases m with
  | text => exact uniform_textStep
  | tag => exact uniform_tagStep
  | word => exact uniform_wordStep

/-! ## Runs -/

/-- A whole run as one operation. -/
def finish (m : Mode) (s : Lexer) : Outcome Unit :=
  match runFrom m s with
  | (s, none) => .ok () s
  | (s, some fault) => .crash fault s

theorem finish_eq (m : Mode) (s : Lexer) : finish m s = (step m s).andThen fun
    | some m, s => finish m s
    | none, s => .ok () s := by
  rw [finish, runFrom]
  rcases step m s with ⟨_ | m, s⟩ | _ <;> rfl

theorem uniform_finish (m : Mode) : Uniform (finish m) := by
  refine .of_recursion (fun m s => 2 * s.unread + m.weight) finish_eq uniform_step
    (fun m m? => ?_) m
  cases m? with
  | none => exact .inr (change_id.ok _)
  | some m' => exact .inl ⟨m', _, change_id, rfl, fun _ _ => step_decreases⟩

/-- A run as its outcome shows it. -/
def Outcome.lexing (x : Outcome α) : Lexing :=
  ⟨x.lexer.actions.reverse, match x with
    | ok _ _ => none
    | crash fault _ => some fault⟩

theorem run_eq (source : Source) : run source = (finish .text { source }).lexing := by
  unfold run finish
  rcases runFrom .text { source } with ⟨s, _ | fault⟩ <;> rfl

theorem steps_run (source : Source) :
    (run source).steps = (finish .text { source }).lexer.actions.reverse := by
  rw [run_eq]
  rfl

theorem reads_run (source : Source) :
    (run source).reads = (finish .text { source }).lexer.reads := by
  rw [Lexing.reads, steps_run, List.count_reverse, reads]

/-! ## Invariants -/

/-- What is known of an outcome: `P` of its value and the lexer, or `C` of a crash. -/
inductive Outcome.Leaves (P : α → Lexer → Prop) (C : Fault → Lexer → Prop) : Outcome α → Prop
  | ok {a : α} {s : Lexer} (holds : P a s) : Leaves P C (.ok a s)
  | crash {fault : Fault} {s : Lexer} (holds : C fault s) : Leaves P C (.crash fault s)

theorem Outcome.Leaves.mono {P P' : α → Lexer → Prop} {C : Fault → Lexer → Prop} {x : Outcome α}
    (leaves : x.Leaves P C) (weaker : ∀ a s, P a s → P' a s) : x.Leaves P' C := by
  cases leaves with
  | ok holds => exact .ok (weaker _ _ holds)
  | crash holds => exact .crash holds

theorem Outcome.Leaves.andThen {P : α → Lexer → Prop} {P' : β → Lexer → Prop}
    {C C' : Fault → Lexer → Prop} {x : Outcome α} {f : α → Lexer → Outcome β}
    (first : x.Leaves P C) (rest : ∀ a s, P a s → (f a s).Leaves P' C')
    (crash : ∀ fault s, C fault s → C' fault s) : (x.andThen f).Leaves P' C' := by
  cases first with
  | ok holds => exact rest _ _ holds
  | crash holds => exact .crash (crash _ _ holds)

theorem Outcome.Leaves.of_ok {P : α → Lexer → Prop} {C : Fault → Lexer → Prop} {x : Outcome α}
    (leaves : x.Leaves P C) {a : α} {s : Lexer} (done : x = .ok a s) : P a s := by
  subst done
  cases leaves with
  | ok holds => exact holds

/-- What scanning keeps of one lexer: `I` while it goes on, `C` where it crashes. -/
structure Invariant (I : Lexer → Prop) (C : Fault → Lexer → Prop) : Prop where
  read {s : Lexer} : I s → s.read.Leaves (fun _ => I) C
  giveBack {s : Lexer} (cs : List Char) : I s → I { s with returned := cs }
  hold {s : Lexer} (cs : List Char) : I s → I { s with pending := cs }
  send {s : Lexer} (token : Token) : I s → I (s.send token)

variable {I : Lexer → Prop} {C : Fault → Lexer → Prop}

/-- An invariant is a simulation of a lexer by itself. -/
theorem Invariant.simulation (inv : Invariant I C) :
    Simulation (fun s t => s = t ∧ I s) (fun fault s t => s = t ∧ C fault s) fun _ _ => False where
  returned := fun ⟨same, _⟩ => by rw [same]
  pending := fun ⟨same, _⟩ => by rw [same]
  read {s t} related := by
    obtain ⟨rfl, holds⟩ := related
    have leaves := inv.read holds
    generalize s.read = x at leaves
    cases leaves with
    | ok holds' => exact .ok ⟨rfl, holds'⟩
    | crash holds' => exact .crash ⟨rfl, holds'⟩
  giveBack cs := fun ⟨same, holds⟩ => ⟨by rw [same], inv.giveBack cs holds⟩
  hold cs := fun ⟨same, holds⟩ => ⟨by rw [same], inv.hold cs holds⟩
  send token := fun ⟨same, holds⟩ => ⟨by rw [same], inv.send token holds⟩
  apart := False.elim

theorem Uniform.invariant {op : Lexer → Outcome α} (uniform : Uniform op) (inv : Invariant I C)
    (holds : I s) : (op s).Leaves (fun _ => I) C := by
  have matched := uniform.keeps inv.simulation ⟨rfl, holds⟩
  generalize op s = x at matched
  cases matched with
  | ok related => exact .ok related.2
  | crash related => exact .crash related.2
  | apart parted => cases parted

theorem Change.invariant {op : Lexer → Lexer} (change : Change op) (inv : Invariant I C)
    (holds : I s) : I (op s) :=
  (change.keeps inv.simulation ⟨rfl, holds⟩).2

end Lexer
end Stencil
