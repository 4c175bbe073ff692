/-
# What a reference means, and what it is resolved to

A reference means the column that it names, of the table that it names if it names one
(`ColumnRef.Means`). It is resolved by comparing labels, where the names are no longer apart, so it
also takes columns that it does not mean (`ColumnRef.Confuses`):

| reference | column that is taken for it |
| --- | --- |
| `c` | `b.c` of any table |
| `b.c` | `c` of the table `a.b` |
| `a` . `b.c` | `c` of the table `a.b` |
| `a.b` . `c` | `b.c` of the table `a` |

`ColumnRef.resolve_tells` says exactly which columns are taken, and that the answer is the right one
unless one of these is there. So it is right wherever no name of a column has a full stop in it.
-/

import MiniSql.Proofs.Reference.Labels
import MiniSql.Schema

namespace MiniSql

/-- The columns of a table, with the name of the table. -/
def Schema.pairs (s : Schema) : List (String × String) := s.columns.map fun c => (s.name, c.name)

/-- Labels of tables side by side are those of their columns. -/
theorem Schema.flatMap_labels (schemas : List Schema) : schemas.flatMap labels =
    (schemas.flatMap pairs).map fun pair => label pair.1 pair.2 := by
  induction schemas with
  | nil => rfl
  | cons s schemas ih =>
    rw [List.flatMap_cons, List.flatMap_cons, List.map_append, ← ih, pairs, List.map_map]
    rfl

namespace ColumnRef

/-! ## Meaning and confusing -/

/-- The reference means the column of this table and name. -/
def Means (c : ColumnRef) (pair : String × String) : Prop :=
  pair.2 = c.name ∧ ∀ table, c.table = some table → pair.1 = table

/-- The reference does not mean the column of this table and name, but is taken to. -/
inductive Confuses : ColumnRef → String × String → Prop
  | longerColumn (table before name : String) :
      Confuses ⟨none, name⟩ (table, label before name)
  | longerTable (before table column : String) :
      Confuses ⟨none, label table column⟩ (label before table, column)
  | splitTable (table rest column : String) :
      Confuses ⟨some table, label rest column⟩ (label table rest, column)
  | splitColumn (table rest name : String) :
      Confuses ⟨some (label table rest), name⟩ (table, label rest name)

variable {c : ColumnRef} {pair : String × String}

/-- What confuses is not meant. -/
theorem Confuses.not_means (h : c.Confuses pair) : ¬c.Means pair := by
  rintro ⟨hname, htable⟩
  cases h with
  | longerColumn table before name => exact label_ne_right hname
  | longerTable before table column => exact label_ne_right hname.symm
  | splitTable table rest column => exact label_ne_right hname.symm
  | splitColumn table rest name => exact label_ne_right hname

/-- What confuses has a full stop in the name of the column or of the reference. -/
theorem Confuses.stop_mem (h : c.Confuses pair) : '.' ∈ pair.2.toList ∨ '.' ∈ c.name.toList := by
  cases h with
  | longerColumn table before name => exact .inl (stop_mem_label before name)
  | longerTable before table column => exact .inr (stop_mem_label table column)
  | splitTable table rest column => exact .inr (stop_mem_label rest column)
  | splitColumn table rest name => exact .inl (stop_mem_label rest name)

/-- **The labels that a reference covers** are those of what it means and of what it confuses. -/
theorem covers_label_iff :
    c.covers (label pair.1 pair.2) = true ↔ c.Means pair ∨ c.Confuses pair := by
  obtain ⟨table, column⟩ := pair
  obtain ⟨_ | q, name⟩ := c
  · have hcovers : covers ⟨none, name⟩ (label table column) = true ↔
        ('.' :: name.toList) <:+ (label table column).toList := List.isSuffixOf_iff_suffix
    rw [hcovers, endsIn_label_iff]
    constructor
    · rintro (rfl | ⟨before, rfl⟩ | ⟨before, z, rfl, rfl⟩)
      · exact .inl ⟨rfl, fun _ h => nomatch h⟩
      · exact .inr (.longerColumn table before name)
      · exact .inr (.longerTable before z column)
    · rintro (⟨rfl, -⟩ | ⟨_, before, _⟩ | ⟨before, z, _⟩)
      · exact .inl rfl
      · exact .inr (.inl ⟨before, rfl⟩)
      · exact .inr (.inr ⟨before, z, rfl, rfl⟩)
  · have hcovers : covers ⟨some q, name⟩ (label table column) = true ↔
        label table column = label q name := beq_iff_eq
    rw [hcovers, label_eq_iff]
    constructor
    · rintro (⟨rfl, rfl⟩ | ⟨z, rfl, rfl⟩ | ⟨z, rfl, rfl⟩)
      · exact .inl ⟨rfl, fun _ h => Option.some.inj h⟩
      · exact .inr (.splitColumn table z name)
      · exact .inr (.splitTable q z column)
    · rintro (⟨rfl, htable⟩ | h)
      · exact .inl ⟨htable q rfl, rfl⟩
      · cases h with
        | splitTable _ rest _ => exact .inr (.inr ⟨rest, rfl, rfl⟩)
        | splitColumn _ rest _ => exact .inr (.inl ⟨rest, rfl, rfl⟩)

/-! ## The answer -/

section Answer

variable {α : Type} {P Q : α → Prop} {xs : List α} {i : Nat} {answer : Except Error Nat}

/-- Only what stands at the position is such. -/
def Only (P : α → Prop) (xs : List α) (i : Nat) : Prop :=
  (∃ x, xs[i]? = some x ∧ P x) ∧ ∀ j y, xs[j]? = some y → P y → j = i

/-- What stands at two positions is such. -/
def Several (P : α → Prop) (xs : List α) : Prop :=
  ∃ (i j : Nat) (x y : α), i < j ∧ xs[i]? = some x ∧ xs[j]? = some y ∧ P x ∧ P y

/-- The answer to the reference tells whether one of the columns is such, and which, or several are
or none. -/
structure Tells (c : ColumnRef) (P : α → Prop) (xs : List α) (answer : Except Error Nat) :
    Prop where
  found : ∀ i, answer = .ok i ↔ Only P xs i
  ambiguous : answer = .error (.schema (.ambiguous c)) ↔ Several P xs
  missing : answer = .error (.schema (.noColumn c)) ↔ ∀ x ∈ xs, ¬P x

/-- Of three cases there is one. -/
theorem only_or_several_or_none (P : α → Prop) (xs : List α) :
    (∃ i, Only P xs i) ∨ Several P xs ∨ ∀ x ∈ xs, ¬P x := by
  by_cases hnone : ∀ x ∈ xs, ¬P x
  · exact .inr (.inr hnone)
  · obtain ⟨x, hx, hP⟩ : ∃ x ∈ xs, P x := by simpa using hnone
    obtain ⟨i, hi⟩ := List.getElem?_of_mem hx
    by_cases honly : Only P xs i
    · exact .inl ⟨i, honly⟩
    · obtain ⟨j, y, hj, hy, hne⟩ : ∃ j y, xs[j]? = some y ∧ P y ∧ j ≠ i := by
        by_contra hall
        refine honly ⟨⟨x, hi, hP⟩, fun j y hj hy => ?_⟩
        by_contra hne
        exact hall ⟨j, y, hj, hy, hne⟩
      rcases Nat.lt_or_gt_of_ne hne with hlt | hgt
      · exact .inr (.inl ⟨j, i, y, x, hlt, hj, hi, hy, hP⟩)
      · exact .inr (.inl ⟨i, j, x, y, hgt, hi, hj, hP, hy⟩)

/-- If only one element has a property, not several have. -/
theorem Only.not_several (h : Only P xs i) : ¬Several P xs := by
  rintro ⟨j, k, x, y, hlt, hj, hk, hx, hy⟩
  have hj' := h.2 j x hj hx
  have hk' := h.2 k y hk hy
  omega

/-- If several have it, one does. -/
theorem Several.exists_mem (h : Several P xs) : ∃ x ∈ xs, P x := by
  obtain ⟨i, j, x, y, -, hi, -, hx, -⟩ := h
  exact ⟨x, List.mem_of_getElem? hi, hx⟩

/-- If only one has it, that one does. -/
theorem Only.exists_mem (h : Only P xs i) : ∃ x ∈ xs, P x := by
  obtain ⟨⟨x, hi, hx⟩, -⟩ := h
  exact ⟨x, List.mem_of_getElem? hi, hx⟩

namespace Tells

/-- A column that is there once is found. -/
theorem of_only (h : Only P xs i) : c.Tells P xs (.ok i) where
  found j := by
    constructor
    · rintro ⟨⟩
      exact h
    · rintro ⟨⟨x, hj, hx⟩, -⟩
      rw [h.2 j x hj hx]
  ambiguous := ⟨fun heq => (nomatch heq), fun hseveral => absurd hseveral h.not_several⟩
  missing := by
    refine ⟨fun heq => (nomatch heq), fun hnone => ?_⟩
    obtain ⟨x, hx, hP⟩ := h.exists_mem
    exact absurd hP (hnone x hx)

/-- A column that is there more often is ambiguous. -/
theorem of_several (h : Several P xs) : c.Tells P xs (.error (.schema (.ambiguous c))) where
  found _ := ⟨fun heq => (nomatch heq), fun honly => absurd h honly.not_several⟩
  ambiguous := ⟨fun _ => h, fun _ => rfl⟩
  missing := by
    refine ⟨fun heq => (nomatch heq), fun hnone => ?_⟩
    obtain ⟨x, hx, hP⟩ := h.exists_mem
    exact absurd hP (hnone x hx)

/-- A column that is not there is reported. -/
theorem of_none (h : ∀ x ∈ xs, ¬P x) : c.Tells P xs (.error (.schema (.noColumn c))) where
  found _ := by
    refine ⟨fun heq => (nomatch heq), fun honly => ?_⟩
    obtain ⟨x, hx, hP⟩ := honly.exists_mem
    exact absurd hP (h x hx)
  ambiguous := by
    refine ⟨fun heq => (nomatch heq), fun hseveral => ?_⟩
    obtain ⟨x, hx, hP⟩ := hseveral.exists_mem
    exact absurd hP (h x hx)
  missing := ⟨fun _ => h, fun _ => rfl⟩

/-- An answer that tells of what is such tells of what is the same in all columns. -/
theorem congr (h : c.Tells P xs answer) (hPQ : ∀ x ∈ xs, P x ↔ Q x) : c.Tells Q xs answer := by
  have hat : ∀ {i : Nat} {x : α}, xs[i]? = some x → (P x ↔ Q x) :=
    fun hi => hPQ _ (List.mem_of_getElem? hi)
  rcases only_or_several_or_none P xs with ⟨i, honly⟩ | hseveral | hnone
  · rw [(h.found i).2 honly]
    obtain ⟨⟨x, hi, hx⟩, hunique⟩ := honly
    exact of_only ⟨⟨x, hi, (hat hi).1 hx⟩, fun j y hj hy => hunique j y hj ((hat hj).2 hy)⟩
  · rw [h.ambiguous.2 hseveral]
    obtain ⟨i, j, x, y, hlt, hi, hj, hx, hy⟩ := hseveral
    exact of_several ⟨i, j, x, y, hlt, hi, hj, (hat hi).1 hx, (hat hj).1 hy⟩
  · rw [h.missing.2 hnone]
    exact of_none fun x hx hQ => hnone x hx ((hPQ x hx).2 hQ)

/-- An answer that also tells of others tells of what is such exactly where there are no others, or
where several are such. -/
theorem left_iff (h : c.Tells (fun x => P x ∨ Q x) xs answer) (hother : ∀ x, Q x → ¬P x) :
    c.Tells P xs answer ↔ (∀ x ∈ xs, ¬Q x) ∨ Several P xs := by
  constructor
  · intro hP
    rcases only_or_several_or_none P xs with ⟨i, honly⟩ | hseveral | hnone
    · -- The one that is such is found, so that no other one stands anywhere else.
      have hfound := (h.found i).1 ((hP.found i).2 honly)
      obtain ⟨⟨x, hi, hx⟩, -⟩ := honly
      refine .inl fun y hy hQ => ?_
      obtain ⟨j, hj⟩ := List.getElem?_of_mem hy
      obtain rfl := hfound.2 j y hj (.inr hQ)
      rw [hi] at hj
      cases hj
      exact hother x hQ hx
    · exact .inr hseveral
    · have hmissing := h.missing.1 (hP.missing.2 hnone)
      exact .inl fun x hx hQ => hmissing x hx (.inr hQ)
  · rintro (hnone | hseveral)
    · exact h.congr fun x hx => or_iff_left (hnone x hx)
    · obtain ⟨i, j, x, y, hlt, hi, hj, hx, hy⟩ := hseveral
      rw [h.ambiguous.2 ⟨i, j, x, y, hlt, hi, hj, .inl hx, .inl hy⟩]
      exact of_several ⟨i, j, x, y, hlt, hi, hj, hx, hy⟩

end Tells

end Answer

/-! ## Resolving -/

/-- The positions of a column ascend. -/
theorem positions_ascend {start : Nat} {labels : List String} :
    (c.positions start labels).Pairwise (· < ·) := by
  induction labels generalizing start with
  | nil => exact .nil
  | cons l labels ih =>
    unfold positions
    split
    · refine List.pairwise_cons.2 ⟨fun i hi => ?_, ih⟩
      have hlower := (mem_positions.1 hi).1
      omega
    · exact ih

/-- **A reference is resolved** to the column whose label it covers. -/
theorem resolve_tells_covers {α : Type} (c : ColumnRef) (f : α → String) (xs : List α) :
    c.Tells (fun x => c.covers (f x) = true) xs (c.resolve (xs.map f)) := by
  have hmem : ∀ i, i ∈ c.positions 0 (xs.map f) ↔ ∃ x, xs[i]? = some x ∧ c.covers (f x) = true := by
    intro i
    rw [mem_positions]
    simp [List.getElem?_map]
  have hascend : (c.positions 0 (xs.map f)).Pairwise (· < ·) := positions_ascend
  unfold resolve
  rcases hpositions : c.positions 0 (xs.map f) with _ | ⟨i, _ | ⟨j, rest⟩⟩
  · rw [hpositions] at hmem
    refine Tells.of_none fun x hx hcovers => ?_
    obtain ⟨i, hi⟩ := List.getElem?_of_mem hx
    exact List.not_mem_nil ((hmem i).2 ⟨x, hi, hcovers⟩)
  · rw [hpositions] at hmem
    refine Tells.of_only ⟨(hmem i).1 (List.mem_singleton_self i), fun j x hj hcovers => ?_⟩
    exact List.mem_singleton.1 ((hmem j).2 ⟨x, hj, hcovers⟩)
  · rw [hpositions] at hmem hascend
    obtain ⟨x, hi, hx⟩ := (hmem i).1 List.mem_cons_self
    obtain ⟨y, hj, hy⟩ := (hmem j).1 (List.mem_cons_of_mem _ List.mem_cons_self)
    have hlt : i < j := (List.pairwise_cons.1 hascend).1 j List.mem_cons_self
    exact Tells.of_several ⟨i, j, x, y, hlt, hi, hj, hx, hy⟩

/-- **What a reference is resolved to.** The answer tells of the columns that the reference means or
confuses. It tells of those that it means, as it should, exactly if there are none that it confuses,
or if it means two; in particular if no name of a column has a full stop, nor the one referred
to. -/
theorem resolve_tells (c : ColumnRef) (pairs : List (String × String)) :
    c.Tells (fun pair => c.Means pair ∨ c.Confuses pair) pairs
        (c.resolve (pairs.map fun pair => label pair.1 pair.2)) ∧
      (c.Tells c.Means pairs (c.resolve (pairs.map fun pair => label pair.1 pair.2)) ↔
        (∀ pair ∈ pairs, ¬c.Confuses pair) ∨ Several c.Means pairs) ∧
      ('.' ∉ c.name.toList → (∀ pair ∈ pairs, '.' ∉ pair.2.toList) →
        c.Tells c.Means pairs (c.resolve (pairs.map fun pair => label pair.1 pair.2))) := by
  have hanswer := (resolve_tells_covers c (fun pair => label pair.1 pair.2) pairs).congr
    fun pair _ => covers_label_iff
  have hfaithful := hanswer.left_iff fun pair => Confuses.not_means
  refine ⟨hanswer, hfaithful, fun hname hpairs => hfaithful.2 (.inl fun pair hpair h => ?_)⟩
  rcases h.stop_mem with hstop | hstop
  · exact hpairs pair hpair hstop
  · exact hname hstop

/-- A table with two columns, one of which has a full stop in its name. -/
def dotted : Schema := ⟨"t", [.plain "c" .integer, .plain "b.c" .integer]⟩

/-- There is one column `c`, but the reference `c` is ambiguous. -/
theorem resolve_tells_dotted : Only (Means ⟨none, "c"⟩) dotted.pairs 0 ∧
    resolve ⟨none, "c"⟩ ([dotted].flatMap Schema.labels) =
      .error (.schema (.ambiguous ⟨none, "c"⟩)) ∧
    ¬Tells ⟨none, "c"⟩ (Means ⟨none, "c"⟩) dotted.pairs
      (resolve ⟨none, "c"⟩ ([dotted].flatMap Schema.labels)) := by
  have hmeans : Means ⟨none, "c"⟩ ("t", "c") := ⟨rfl, fun _ h => nomatch h⟩
  have hconfuses : Confuses ⟨none, "c"⟩ ("t", "b.c") := .longerColumn "t" "b" "c"
  have honly : Only (Means ⟨none, "c"⟩) dotted.pairs 0 := by
    refine ⟨⟨("t", "c"), rfl, hmeans⟩, fun j pair hj hpair => ?_⟩
    match j, hj with
    | 0, _ => rfl
    | 1, hj =>
      cases hj
      exact absurd hpair hconfuses.not_means
  have hpairs : [dotted].flatMap Schema.pairs = dotted.pairs := List.flatMap_singleton _ _
  rw [Schema.flatMap_labels, hpairs]
  obtain ⟨hanswer, hfaithful, -⟩ := resolve_tells ⟨none, "c"⟩ dotted.pairs
  refine ⟨honly, hanswer.ambiguous.2 ⟨0, 1, _, _, Nat.zero_lt_one, rfl, rfl, .inl hmeans,
    .inr hconfuses⟩, fun h => ?_⟩
  rcases hfaithful.1 h with hnone | hseveral
  · exact hnone _ (List.mem_cons_of_mem _ List.mem_cons_self) hconfuses
  · exact honly.not_several hseveral

end ColumnRef
end MiniSql
