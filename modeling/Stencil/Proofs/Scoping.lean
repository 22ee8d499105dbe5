import Mathlib.Data.List.Induction
import Mathlib.Logic.Relation
import Stencil.Scope
import Stencil.Token.Lexing

/-!
# Lookups in nested scopes

What a lookup gives is told from the steps that made the scopes, without looking at how the scopes
keep their bindings. The steps say which parent a scope was given and which value was bound last
in it (`Scopes.parentOf?`, `Scopes.latest?`); a lookup goes from parent to parent, up to the first
scope in which the name was bound (`Scopes.Sees`).

The scopes that steps make hold what the steps say (`Scopes.Records`). Each step keeps that, and
from it comes one equation for a lookup, which moves to an older scope (`Scopes.Records.get?_eq`).
All laws are proved from this equation, by induction on the number of the scope.
-/

namespace Stencil

variable {α : Type}

/-! ## The scopes as they are kept -/

namespace Scope

/-- Among bindings that are made in turn the last one of a name counts. -/
theorem find?_foldl_bind (bs : List (String × α)) (s : Scope α) (name : String) :
    (bs.foldl (fun s b => s.bind b.1 b.2) s).find? name =
      (bs.reverse.lookup name).or (s.find? name) := by
  induction bs generalizing s with
  | nil => rfl
  | cons b bs ih =>
    have first : (s.bind b.1 b.2).find? name = ([b].lookup name).or (s.find? name) := by
      rw [find?_bind]
      obtain ⟨key, value⟩ := b
      by_cases same : name = key
      · rw [if_pos same, same, List.lookup_cons_self, Option.some_or]
      · rw [if_neg same, List.lookup_cons, beq_eq_false_iff_ne.mpr same, List.lookup_nil,
          Option.none_or]
    rw [List.foldl_cons, ih, first, List.reverse_cons, List.lookup_append, Option.or_assoc]

theorem parent_foldl_bind (bs : List (String × α)) (s : Scope α) :
    (bs.foldl (fun s b => s.bind b.1 b.2) s).parent = s.parent := by
  induction bs generalizing s with
  | nil => rfl
  | cons b bs ih => exact ih _

/-- Of several bindings for one name, the last counts. -/
theorem find?_ofBindings (bs : List (String × α)) (parent : Option Nat) (name : String) :
    (ofBindings bs parent).find? name = bs.reverse.lookup name :=
  (find?_foldl_bind bs _ name).trans (Option.or_none ..)

theorem parent_ofBindings (bs : List (String × α)) (parent : Option Nat) :
    (ofBindings bs parent).parent = parent :=
  parent_foldl_bind bs _

end Scope

namespace Scopes

variable {e e' : Scopes α} {s : Scope α} {n k : Nat} {name key : String} {value : α}
  {older : List (Scope α)}

theorem getElem?_concat {β : Type} (bs : List β) (b : β) (n : Nat) :
    (bs ++ [b])[n]? = if n = bs.length then some b else bs[n]? := by
  split
  · next last => rw [last, List.getElem?_concat_length]
  · next other =>
    rw [List.getElem?_append]
    split
    · rfl
    · next outside =>
      rw [List.getElem?_eq_none (by rw [List.length_singleton]; omega),
        List.getElem?_eq_none (Nat.le_of_not_lt outside)]

/-- Scopes are numbered from the oldest, which is the last of the list. -/
theorem getElem?_reverse_cons (s : Scope α) (older : List (Scope α)) (n : Nat) :
    (s :: older).reverse[n]? = if n = older.length then some s else older.reverse[n]? := by
  rw [List.reverse_cons, getElem?_concat, List.length_reverse]

theorem lt_size_of_scope? (found : e.scope? n = some s) : n < e.size := by
  obtain ⟨inside, -⟩ := List.getElem?_eq_some_iff.mp found
  rwa [List.length_reverse] at inside

theorem exists_scope? (inside : n < e.size) : ∃ s, e.scope? n = some s :=
  ⟨_, List.getElem?_eq_getElem (by rwa [List.length_reverse])⟩

/-- A newer scope does not matter to a lookup in an older one. -/
theorem lookup_cons_of_lt (inside : n < older.length) :
    lookup name (s :: older) n = lookup name older n := by
  rw [lookup, if_neg (Nat.ne_of_lt inside)]

/-- A lookup asks the scope, and then its parent. -/
theorem lookup_eq {scopes : List (Scope α)} (found : scopes.reverse[n]? = some s)
    (descends : ∀ p, s.parent = some p → p < n) :
    lookup name scopes n = (s.find? name).or (s.parent.bind (lookup name scopes)) := by
  induction scopes with
  | nil => cases found
  | cons t older ih =>
    have inside : n < older.length + 1 := lt_size_of_scope? (e := ⟨t :: older⟩) found
    -- Parents are among the older scopes, in which the lookup goes on.
    have below : s.parent.bind (lookup name (t :: older)) = s.parent.bind (lookup name older) := by
      cases parent : s.parent with
      | none => rfl
      | some p => exact lookup_cons_of_lt (Nat.lt_of_lt_of_le (descends p parent) (by omega))
    rw [getElem?_reverse_cons] at found
    rw [below]
    split at found
    · next newest =>
      obtain rfl := Option.some.inj found
      rw [lookup, if_pos newest]
      cases t.find? name with
      | some value => rfl
      | none => cases t.parent <;> rfl
    · next other => rw [lookup_cons_of_lt (by omega), ih found]

/-- A lookup in a scope, by that in its parent. -/
theorem get?_eq (found : e.scope? n = some s) (descends : ∀ p, s.parent = some p → p < n) :
    e.get? n name = (s.find? name).or (s.parent.bind fun p => e.get? p name) :=
  lookup_eq found descends

theorem scope?_new (bs : List (String × α)) (parent : Option Nat) :
    (e.new bs parent).scope? n =
      if n = e.size then some (.ofBindings bs parent) else e.scope? n :=
  getElem?_reverse_cons _ _ _

/-- A new scope changes no lookup in the others. -/
theorem get?_new (inside : n < e.size) (bs : List (String × α)) (parent : Option Nat) :
    (e.new bs parent).get? n name = e.get? n name :=
  lookup_cons_of_lt inside

theorem length_setIn (scopes : List (Scope α)) :
    (setIn key value scopes n).length = scopes.length := by
  induction scopes with
  | nil => rfl
  | cons s older ih =>
    rw [setIn]
    split
    · rfl
    · rw [List.length_cons, List.length_cons, ih]

theorem size_set : (e.set n key value).size = e.size :=
  length_setIn e.scopes

/-- Setting a value in a scope binds it there, and leaves all other scopes alone. -/
theorem getElem?_setIn (scopes : List (Scope α)) :
    (setIn key value scopes n).reverse[k]? =
      if k = n then scopes.reverse[k]?.map (Scope.bind key value) else scopes.reverse[k]? := by
  induction scopes with
  | nil => simp [setIn]
  | cons s older ih =>
    rw [setIn, getElem?_reverse_cons]
    by_cases newest : n = older.length
    · rw [if_pos newest, getElem?_reverse_cons, newest]
      split
      · rfl
      · rfl
    · rw [if_neg newest, getElem?_reverse_cons, length_setIn, ih]
      by_cases here : k = older.length
      · rw [if_pos here, if_pos here, if_neg (by omega)]
      · rw [if_neg here, if_neg here]

theorem scope?_set : (e.set n key value).scope? k =
    if k = n then (e.scope? k).map (Scope.bind key value) else e.scope? k :=
  getElem?_setIn e.scopes

/-! ## Steps, and what they say -/

/-- One thing done to scopes. -/
inductive Step (α : Type) where
  | new (bindings : List (String × α)) (parent : Option Nat)
  | child (parent : Nat) (values : List (String × α))
  | set (scope : Nat) (name : String) (value : α)

/-- The scopes behind a step, if it succeeds: all scopes that it names are there, and it gives no
child scope the reserved name. -/
def Step.perform? (e : Scopes α) : Step α → Option (Scopes α)
  | new bindings parent =>
    if parent.all (· < e.size) then some (e.new bindings parent) else none
  | child parent values => if parent < e.size then (e.child parent values).toOption else none
  | set scope name value => if scope < e.size then some (e.set scope name value) else none

/-- The scopes that steps make, one after the other, if all of them succeed. -/
def made? (steps : List (Step α)) : Option (Scopes α) :=
  steps.foldlM Step.perform? {}

/-- The bindings and the parent of the scope that a step creates. -/
def Step.created? : Step α → Option (List (String × α) × Option Nat)
  | new bindings parent => some (bindings, parent)
  | child parent values => some (values, some parent)
  | set .. => none

/-- What a step binds in scope number `n`, which is there already. -/
def Step.bound? (n : Nat) : Step α → Option (String × α)
  | set scope name value => if scope = n then some (name, value) else none
  | _ => none

/-- The scopes that steps create, the oldest first. -/
def created (steps : List (Step α)) : List (List (String × α) × Option Nat) :=
  steps.filterMap Step.created?

/-- The parent that a scope was created with. -/
def parentOf? (steps : List (Step α)) (n : Nat) : Option Nat :=
  (created steps)[n]?.bind (·.2)

/-- All bindings that were made in a scope, the first one first: those that it was created with,
and those set later. -/
def bindingsOf (steps : List (Step α)) (n : Nat) : List (String × α) :=
  ((created steps)[n]?.elim [] (·.1)) ++ steps.filterMap (Step.bound? n)

/-- The value that was bound last to a name in a scope. -/
def latest? (steps : List (Step α)) (n : Nat) (name : String) : Option α :=
  (bindingsOf steps n).reverse.lookup name

/-- From a scope to one on its parent chain, itself included. -/
abbrev Reaches (steps : List (Step α)) : Nat → Nat → Prop :=
  Relation.ReflTransGen fun n p => parentOf? steps n = some p

/-- From a scope to one on its parent chain, itself included, with no nearer scope in which the
name was bound. -/
abbrev Sees (steps : List (Step α)) (name : String) : Nat → Nat → Prop :=
  Relation.ReflTransGen fun n p => latest? steps n name = none ∧ parentOf? steps n = some p

/-- The scopes hold what the steps say, and each is younger than its parent. -/
structure Records (steps : List (Step α)) (e : Scopes α) : Prop where
  size : (created steps).length = e.size
  bindings : ∀ n s, e.scope? n = some s → ∀ name, s.find? name = latest? steps n name
  parent : ∀ n s, e.scope? n = some s → s.parent = parentOf? steps n
  older : ∀ n p, parentOf? steps n = some p → p < n
  absent : ∀ n, e.size ≤ n → steps.filterMap (Step.bound? n) = []

variable {steps : List (Step α)} {step : Step α} {bs : List (String × α)} {parent : Option Nat}
  {p b : Nat}

theorem made?_append_singleton :
    made? (steps ++ [step]) = (made? steps).bind fun e => step.perform? e := by
  rw [made?, List.foldlM_append]
  simp only [List.foldlM_cons, List.foldlM_nil, bind_pure]
  rfl

theorem records_nil : Records (α := α) [] {} where
  size := rfl
  bindings _ _ found := nomatch found
  parent _ _ found := nomatch found
  older _ _ parent := nomatch parent
  absent _ _ := rfl

/-! ## A scope is created -/

section Create

variable (creates : step.created? = some (bs, parent))
include creates

theorem bound?_of_created : step.bound? n = none := by
  cases step with
  | new | child => rfl
  | set => cases creates

theorem created_create : created (steps ++ [step]) = created steps ++ [(bs, parent)] := by
  rw [created, List.filterMap_append, List.filterMap_cons_some creates]
  rfl

theorem bound_create :
    (steps ++ [step]).filterMap (Step.bound? n) = steps.filterMap (Step.bound? n) := by
  rw [List.filterMap_append, List.filterMap_cons_none (bound?_of_created creates)]
  exact List.append_nil _

theorem parentOf?_create : parentOf? (steps ++ [step]) n =
    if n = (created steps).length then parent else parentOf? steps n := by
  rw [parentOf?, created_create creates, getElem?_concat]
  split <;> rfl

theorem latest?_create (other : n ≠ (created steps).length) :
    latest? (steps ++ [step]) n name = latest? steps n name := by
  rw [latest?, bindingsOf, created_create creates, getElem?_concat, if_neg other,
    bound_create creates]
  rfl

theorem latest?_created (absent : steps.filterMap (Step.bound? (created steps).length) = []) :
    latest? (steps ++ [step]) (created steps).length name = bs.reverse.lookup name := by
  rw [latest?, bindingsOf, created_create creates, getElem?_concat, if_pos rfl,
    bound_create creates, absent, List.append_nil]
  rfl

/-- A step that creates a scope is recorded in a new scope, and all others stay as they are. -/
theorem Records.create (records : Records steps e)
    (inside : ∀ p, parent = some p → p < e.size) :
    Records (steps ++ [step]) (e.new bs parent) where
  size := by
    rw [created_create creates, List.length_append, records.size]
    rfl
  bindings n s found name := by
    rw [scope?_new] at found
    split at found
    · next newest =>
      obtain rfl := Option.some.inj found
      rw [Scope.find?_ofBindings, newest, ← records.size, latest?_created creates]
      exact records.absent _ (Nat.le_of_eq records.size.symm)
    · next other =>
      rw [latest?_create creates (records.size ▸ other), records.bindings n s found]
  parent n s found := by
    rw [scope?_new] at found
    rw [parentOf?_create creates, records.size]
    split at found
    · next newest =>
      obtain rfl := Option.some.inj found
      rw [if_pos newest, Scope.parent_ofBindings]
    · next other => rw [if_neg other, records.parent n s found]
  older n p kept := by
    rw [parentOf?_create creates, records.size] at kept
    split at kept
    · next newest => exact newest ▸ inside p kept
    · exact records.older n p kept
  absent n outside := by
    rw [bound_create creates]
    exact records.absent n (Nat.le_of_succ_le outside)

end Create

/-! ## A name is bound -/

theorem created_set : created (steps ++ [.set k key value]) = created steps := by
  rw [created, List.filterMap_append, List.filterMap_cons_none rfl]
  exact List.append_nil _

theorem parentOf?_set : parentOf? (steps ++ [.set k key value]) n = parentOf? steps n := by
  rw [parentOf?, created_set]
  rfl

theorem bound_set_self : (steps ++ [Step.set n key value]).filterMap (Step.bound? n) =
    steps.filterMap (Step.bound? n) ++ [(key, value)] := by
  have here : Step.bound? n (.set n key value) = some (key, value) := if_pos rfl
  rw [List.filterMap_append, List.filterMap_cons_some here, List.filterMap_nil]

theorem bound_set_other (other : k ≠ n) :
    (steps ++ [Step.set k key value]).filterMap (Step.bound? n) =
      steps.filterMap (Step.bound? n) := by
  have elsewhere : Step.bound? n (.set k key value) = none := if_neg other
  rw [List.filterMap_append, List.filterMap_cons_none elsewhere, List.filterMap_nil,
    List.append_nil]

/-- The latest value is the one just set, in the scope and under the name it was set for. -/
theorem latest?_set : latest? (steps ++ [.set k key value]) n name =
    if n = k ∧ name = key then some value else latest? steps n name := by
  rw [latest?, latest?, bindingsOf, bindingsOf, created_set]
  by_cases here : n = k
  · subst here
    rw [bound_set_self, ← List.append_assoc, List.reverse_append, List.reverse_singleton,
      List.singleton_append]
    by_cases same : name = key
    · rw [if_pos ⟨rfl, same⟩, same, List.lookup_cons_self]
    · rw [if_neg fun both => same both.2, List.lookup_cons, beq_eq_false_iff_ne.mpr same]
  · rw [bound_set_other (Ne.symm here), if_neg fun both => here both.1]

/-- A step that sets a value is recorded in its scope, and all others stay as they are. -/
theorem Records.set (records : Records steps e) (inside : k < e.size) :
    Records (steps ++ [.set k key value]) (e.set k key value) where
  size := by rw [created_set, size_set, records.size]
  bindings n s found name := by
    rw [scope?_set] at found
    rw [latest?_set]
    split at found
    · next here =>
      obtain ⟨before, kept, rfl⟩ := Option.map_eq_some_iff.mp found
      rw [Scope.find?_bind, records.bindings n before kept]
      simp only [here, true_and]
    · next other => rw [if_neg fun both => other both.1, records.bindings n s found]
  parent n s found := by
    rw [scope?_set] at found
    rw [parentOf?_set]
    split at found
    · obtain ⟨before, kept, rfl⟩ := Option.map_eq_some_iff.mp found
      exact records.parent n before kept
    · exact records.parent n s found
  older n p kept := by
    rw [parentOf?_set] at kept
    exact records.older n p kept
  absent n outside := by
    rw [size_set] at outside
    rw [bound_set_other (Nat.ne_of_lt (Nat.lt_of_lt_of_le inside outside))]
    exact records.absent n outside

/-! ## Whole runs -/

theorem toOption_child {values : List (String × α)}
    (done : (e.child n values).toOption = some e') : e' = e.new values (some n) := by
  unfold child at done
  split at done
  · cases done
  · exact (Option.some.inj done).symm

/-- A step that creates a scope adds it behind the others, below a parent that is there. -/
theorem perform?_eq_some_of_created (creates : step.created? = some (bs, parent))
    (done : step.perform? e = some e') :
    e' = e.new bs parent ∧ ∀ p, parent = some p → p < e.size := by
  cases step with
  | new bindings parent' =>
    cases creates
    rw [Step.perform?] at done
    split at done
    · next inside =>
      refine ⟨(Option.some.inj done).symm, ?_⟩
      rintro p rfl
      exact of_decide_eq_true inside
    · cases done
  | child n values =>
    cases creates
    rw [Step.perform?] at done
    split at done
    · next inside =>
      refine ⟨toOption_child done, ?_⟩
      rintro p same
      exact Option.some.inj same ▸ inside
    · cases done
  | set => cases creates

/-- Records of the steps so far stay true with one more step. -/
theorem Records.after (records : Records steps e) (done : step.perform? e = some e') :
    Records (steps ++ [step]) e' := by
  cases creates : step.created? with
  | some c =>
    obtain ⟨rfl, inside⟩ := perform?_eq_some_of_created creates done
    exact records.create creates inside
  | none =>
    cases step with
    | new | child => cases creates
    | set k key value =>
      rw [Step.perform?] at done
      split at done
      · next inside =>
        obtain rfl := Option.some.inj done
        exact records.set inside
      · cases done

/-- Whatever the steps are, if all of them succeed, the scopes hold what they say. -/
theorem records_of_made (made : made? steps = some e) : Records steps e := by
  induction steps using List.reverseRecOn generalizing e with
  | nil =>
    cases made
    exact records_nil
  | append_singleton steps step ih =>
    rw [made?_append_singleton] at made
    obtain ⟨e₀, made, done⟩ := Option.bind_eq_some_iff.mp made
    exact (ih made).after done

/-! ## Lookups -/

/-- A lookup is that of the steps: in the scope itself, or else in its parent. -/
theorem Records.get?_eq (records : Records steps e) (inside : n < e.size) :
    e.get? n name =
      (latest? steps n name).or ((parentOf? steps n).bind fun p => e.get? p name) := by
  obtain ⟨s, found⟩ := exists_scope? inside
  have parent := records.parent n s found
  have descends : ∀ p, s.parent = some p → p < n := fun p kept =>
    records.older n p (parent ▸ kept)
  rw [Scopes.get?_eq found descends, records.bindings n s found, parent]

/-- A lookup finds the latest value in the scope that is seen to have the name. -/
theorem Records.get?_eq_some_iff (records : Records steps e) (inside : n < e.size) :
    e.get? n name = some value ↔ ∃ b, Sees steps name n b ∧ latest? steps b name = some value := by
  induction n using Nat.strongRecOn with
  | ind n ih =>
    rw [records.get?_eq inside]
    cases latest : latest? steps n name with
    | some v =>
      rw [Option.some_or]
      constructor
      · exact fun same => ⟨n, .refl, latest.trans same⟩
      · rintro ⟨b, sees, bound⟩
        rcases sees.cases_head with rfl | ⟨p, ⟨unbound, -⟩, -⟩
        · exact latest.symm.trans bound
        · cases latest.symm.trans unbound
    | none =>
      rw [Option.none_or]
      constructor
      · intro found
        obtain ⟨p, parent, found⟩ := Option.bind_eq_some_iff.mp found
        have descends := records.older n p parent
        obtain ⟨b, sees, bound⟩ := (ih p descends (Nat.lt_trans descends inside)).mp found
        exact ⟨b, .head ⟨latest, parent⟩ sees, bound⟩
      · rintro ⟨b, sees, bound⟩
        rcases sees.cases_head with rfl | ⟨p, ⟨-, parent⟩, sees⟩
        · cases latest.symm.trans bound
        · have descends := records.older n p parent
          rw [parent, Option.bind_some]
          exact (ih p descends (Nat.lt_trans descends inside)).mpr ⟨b, sees, bound⟩

/-- A lookup finds nothing exactly if no scope that it can reach has the name. -/
theorem Records.get?_eq_none_iff (records : Records steps e) (inside : n < e.size) :
    e.get? n name = none ↔ ∀ b, Reaches steps n b → latest? steps b name = none := by
  induction n using Nat.strongRecOn with
  | ind n ih =>
    rw [records.get?_eq inside, Option.or_eq_none_iff, Option.bind_eq_none_iff]
    constructor
    · rintro ⟨unbound, above⟩ b reaches
      rcases reaches.cases_head with rfl | ⟨p, parent, reaches⟩
      · exact unbound
      · have descends := records.older n p parent
        exact (ih p descends (Nat.lt_trans descends inside)).mp (above p parent) b reaches
    · intro unbound
      refine ⟨unbound n .refl, fun p parent => ?_⟩
      have descends := records.older n p parent
      exact (ih p descends (Nat.lt_trans descends inside)).mpr fun b reaches =>
        unbound b (.head parent reaches)

/-- A value that is set is found from everywhere that the scope is seen from. -/
theorem Records.get?_set_of_sees (records : Records steps e) (inside : k < e.size)
    (here : n < e.size) (sees : Sees steps key n k) :
    (e.set k key value).get? n key = some value := by
  have after : Records (steps ++ [.set k key value]) (e.set k key value) := records.set inside
  induction sees using Relation.ReflTransGen.head_induction_on with
  | refl => rw [after.get?_eq (by rwa [size_set]), latest?_set, if_pos ⟨rfl, rfl⟩, Option.some_or]
  | @head n p link sees ih =>
    obtain ⟨unbound, parent⟩ := link
    rw [after.get?_eq (by rwa [size_set]), latest?_set]
    split
    · exact Option.some_or
    · rw [unbound, Option.none_or, parentOf?_set, parent, Option.bind_some]
      exact ih (Nat.lt_trans (records.older n p parent) here)

/-- Any other lookup stays as it is. -/
theorem Records.get?_set_of_not_sees (records : Records steps e) (inside : k < e.size)
    (here : n < e.size) (other : ¬(name = key ∧ Sees steps key n k)) :
    (e.set k key value).get? n name = e.get? n name := by
  have after : Records (steps ++ [.set k key value]) (e.set k key value) := records.set inside
  induction n using Nat.strongRecOn with
  | ind n ih =>
    have unset : ¬(n = k ∧ name = key) := by
      rintro ⟨rfl, same⟩
      exact other ⟨same, .refl⟩
    rw [after.get?_eq (by rwa [size_set]), records.get?_eq here, latest?_set, if_neg unset,
      parentOf?_set]
    cases latest : latest? steps n name with
    | some v => rfl
    | none =>
      cases parent : parentOf? steps n with
      | none => rfl
      | some p =>
        have descends := records.older n p parent
        refine ih p descends (Nat.lt_trans descends here) ?_
        rintro ⟨rfl, sees⟩
        exact other ⟨rfl, .head ⟨latest, parent⟩ sees⟩

/-- How names are looked up in the scopes that steps made. -/
structure Lexical (steps : List (Step α)) (e : Scopes α) : Prop where
  /-- A parent is older than its children, so a lookup ends. -/
  older : ∀ n p, parentOf? steps n = some p → p < n
  /-- A name has the value that was bound last to it in the nearest scope in which it was bound. -/
  found : ∀ n < e.size, ∀ name value, e.get? n name = some value ↔
    ∃ b, Sees steps name n b ∧ latest? steps b name = some value
  /-- It has none if it was bound in no scope of the chain. -/
  missing : ∀ n < e.size, ∀ name, e.get? n name = none ↔
    ∀ b, Reaches steps n b → latest? steps b name = none
  contains : ∀ n name, e.contains n name = true ↔ ∃ value, e.get? n name = some value
  /-- A value that is set is found from wherever the scope is seen from, and no other lookup
  changes. -/
  set : ∀ k < e.size, ∀ key value,
    (Step.set k key value).perform? e = some (e.set k key value) ∧
      (e.set k key value).size = e.size ∧ ∀ n < e.size, ∀ name,
        (name = key ∧ Sees steps key n k → (e.set k key value).get? n name = some value) ∧
        (¬(name = key ∧ Sees steps key n k) →
          (e.set k key value).get? n name = e.get? n name)
  /-- A new scope is one more, and changes no lookup in the others. -/
  create : ∀ (step : Step α) (e' : Scopes α), step.created? ≠ none → step.perform? e = some e' →
    e'.size = e.size + 1 ∧ ∀ n < e.size, ∀ name, e'.get? n name = e.get? n name

/-- In scopes that steps made, whatever the steps were, a name is looked up as the steps say. -/
theorem lexical_of_made {steps : List (Step α)} {e : Scopes α} (made : made? steps = some e) :
    Lexical steps e where
  older := (records_of_made made).older
  found n inside name value := (records_of_made made).get?_eq_some_iff inside
  missing n inside name := (records_of_made made).get?_eq_none_iff inside
  contains n name := Option.isSome_iff_exists
  set k inside key value := by
    have records := records_of_made made
    refine ⟨if_pos inside, size_set, fun n here name => ⟨?_, ?_⟩⟩
    · rintro ⟨rfl, sees⟩
      exact records.get?_set_of_sees inside here sees
    · exact records.get?_set_of_not_sees inside here
  create step e' creates done := by
    obtain ⟨⟨bs, parent⟩, creates⟩ := Option.ne_none_iff_exists'.mp creates
    obtain ⟨rfl, -⟩ := perform?_eq_some_of_created creates done
    exact ⟨rfl, fun n inside name => get?_new inside bs parent⟩

/-- A value that is set in a parent shows through the child that does not bind the name, also if it
is nothing, and not through the child that does. -/
theorem lexical_of_made_shadowed :
    ∃ e : Scopes (Option Bool),
      made? [.new [("x", some true)] none, .child 0 [("y", some false)],
        .child 0 [("x", some false)], .set 0 "x" none] = some e ∧
      e.get? 1 "x" = some none ∧ e.get? 2 "x" = some (some false) ∧ e.get? 2 "y" = none := by
  refine ⟨_, rfl, ?_⟩
  have lexical : Lexical (α := Option Bool) [.new [("x", some true)] none,
      .child 0 [("y", some false)], .child 0 [("x", some false)], .set 0 "x" none] _ :=
    lexical_of_made rfl
  refine ⟨(lexical.found 1 (by decide) _ _).mpr ⟨0, .single (by decide), by decide⟩,
    (lexical.found 2 (by decide) _ _).mpr ⟨2, .refl, by decide⟩,
    (lexical.missing 2 (by decide) _).mpr fun b reaches => ?_⟩
  rcases reaches.cases_head with rfl | ⟨p, parent, reaches⟩
  · decide
  · obtain rfl : 0 = p := Option.some.inj parent
    rcases reaches.cases_head with rfl | ⟨p, none, -⟩
    · decide
    · cases none

/-! ## The values of a child scope -/

theorem get?_new_self (inside : n < e.size) (bs : List (String × α)) :
    (e.new bs (some n)).get? e.size name = (bs.reverse.lookup name).or (e.get? n name) := by
  have found : (e.new bs (some n)).scope? e.size = some (.ofBindings bs (some n)) := by
    rw [scope?_new, if_pos rfl]
  have parent : (Scope.ofBindings bs (some n)).parent = some n := Scope.parent_ofBindings bs _
  rw [Scopes.get?_eq found fun p kept => Option.some.inj (parent.symm.trans kept) ▸ inside,
    Scope.find?_ofBindings, parent, Option.bind_some, get?_new inside]

theorem lookup_reverse_of_mem {b : String × α} (distinct : (bs.map Prod.fst).Nodup)
    (member : b ∈ bs) : bs.reverse.lookup b.1 = some b.2 := by
  obtain ⟨front, back, rfl⟩ := List.append_of_mem member
  refine List.lookup_eq_some_iff.mpr ⟨back.reverse, front.reverse, by simp, fun c later => ?_⟩
  rw [List.map_append, List.map_cons] at distinct
  have apart := (List.nodup_cons.mp (List.nodup_append.mp distinct).2.1).1
  refine bne_iff_ne.mpr fun same => apart ?_
  exact List.mem_map.mpr ⟨c, List.mem_reverse.mp later, same.symm⟩

theorem lookup_reverse_of_not_mem (unbound : name ∉ bs.map Prod.fst) :
    bs.reverse.lookup name = none := by
  refine List.lookup_eq_none_iff.mpr fun c member => bne_iff_ne.mpr fun same => unbound ?_
  exact List.mem_map.mpr ⟨c, List.mem_reverse.mp member, same.symm⟩

theorem child_of_free (free : ∀ b ∈ bs, b.1 ≠ reservedName) :
    e.child n bs = .ok (e.new bs (some n)) := by
  refine if_neg fun reserved => ?_
  obtain ⟨b, member, same⟩ := List.any_eq_true.mp reserved
  exact free b member (beq_iff_eq.mp same)

theorem child_of_reserved (reserved : ∃ b ∈ bs, b.1 = reservedName) :
    e.child n bs = .error reservedMessage := by
  obtain ⟨b, member, same⟩ := reserved
  have found : bs.any (·.1 == reservedName) := List.any_eq_true.mpr ⟨b, member, by simpa⟩
  exact if_pos found

/-- A child scope is a new scope with that parent and those values, unless they bind the reserved
name: then there is none, and what is wrong is said. In the new scope each name of the values has
its value, and every other name what it has in the parent; no other scope changes. -/
theorem child_eq_new_iff {e : Scopes α} {n : Nat} (inside : n < e.size)
    (values : List (String × α)) (distinct : (values.map Prod.fst).Nodup) :
    (e.child n values = .ok (e.new values (some n)) ↔ ∀ b ∈ values, b.1 ≠ reservedName) ∧
      ((∃ b ∈ values, b.1 = reservedName) → e.child n values = .error reservedMessage) ∧
      (e.new values (some n)).size = e.size + 1 ∧
      (∀ b ∈ values, (e.new values (some n)).get? e.size b.1 = some b.2) ∧
      (∀ name, name ∉ values.map Prod.fst →
        (e.new values (some n)).get? e.size name = e.get? n name) ∧
      ∀ k < e.size, ∀ name, (e.new values (some n)).get? k name = e.get? k name := by
  refine ⟨⟨fun done b member same => ?_, fun free => ?_⟩, ?_, rfl, fun b member => ?_,
    fun name unbound => ?_, fun k inside name => get?_new inside _ _⟩
  · rw [child_of_reserved ⟨b, member, same⟩] at done
    cases done
  · exact child_of_free free
  · exact child_of_reserved
  · rw [get?_new_self inside, lookup_reverse_of_mem distinct member, Option.some_or]
  · rw [get?_new_self inside, lookup_reverse_of_not_mem unbound, Option.none_or]

/-- Names that could be mistaken for parts of the step itself are bound like any other. -/
theorem child_eq_new_iff_values :
    ∃ e e' : Scopes Nat, made? [.new [("x", 0)] none] = some e ∧
      e.child 0 [("values", 1), ("name", 2)] = .ok e' ∧
      e'.get? 1 "values" = some 1 ∧ e'.get? 1 "name" = some 2 ∧ e'.get? 1 "x" = e.get? 0 "x" := by
  obtain ⟨⟨-, made⟩, -, -, bound, unbound, -⟩ :=
    child_eq_new_iff (e := (⟨[.ofBindings [("x", 0)] none]⟩ : Scopes Nat)) (n := 0) (by decide)
      [("values", 1), ("name", 2)] (by decide)
  exact ⟨_, _, rfl, made (by decide), bound ("values", 1) (by decide),
    bound ("name", 2) (by decide), unbound "x" (by decide)⟩

/-- The reserved name is one that templates can use, and a new scope can bind it, but no child
scope. -/
theorem reserved_name_not_bound :
    ⟨.ident, "self"⟩ ∈ (Lexer.run (.ofText "\x7b\x7bself\x7d\x7d")).body ∧
      ∃ e : Scopes Nat, made? [.new [] none] = some e ∧
        e.child 0 [("self", 1)] =
          .error "Environment.child() got multiple values for argument 'self'" ∧
        (e.new [("self", 1)] (some 0)).get? 1 "self" = some 1 := by
  refine ⟨by decide +kernel, _, rfl, ?_, by decide⟩
  rw [child_of_reserved ⟨("self", 1), List.mem_singleton_self _, rfl⟩]
  rfl

end Scopes
end Stencil
