/-
# The placeholders of a statement

Placeholders stand where values stand, and nowhere else: in predicates, in the tuples of an
`INSERT`, on the right of an assignment and in a default. The other parts of a statement have none,
and one that a text has starts with its sign and a digit (`carries_of_mem_placeholders`).

Another tree may stand in the place of a placeholder (`Tree.replace`).
-/

import MiniSql.Plan.Arguments
import MiniSql.Proofs.Grammar.RoundTrip

namespace MiniSql
namespace Arguments

open Grammar Grammar.Spells

mutual

/-- What stands at the nodes of a tree does not depend on the depth that they are counted from. -/
theorem snd_nodes (d d' : Nat) : ∀ t : Tree, (t.nodes d).map (·.2) = (t.nodes d').map (·.2)
  | ⟨_, _, children⟩ => by
    rw [Tree.nodes, Tree.nodes, List.map_cons, List.map_cons, snd_nodesAll _ (d' + 1) children]

/-- What stands at the nodes of several trees does not depend on the depth either. -/
theorem snd_nodesAll (d d' : Nat) :
    ∀ ts : List Tree, (Tree.nodesAll d ts).map (·.2) = (Tree.nodesAll d' ts).map (·.2)
  | [] => rfl
  | t :: ts => by
    rw [Tree.nodesAll, Tree.nodesAll, List.map_append, List.map_append, snd_nodes d d' t,
      snd_nodesAll d d' ts]

end

/-- At which depth a tree stands does not matter. -/
theorem placeholders_eq (t : Tree) (d : Nat) : placeholders t =
    (((t.nodes d).map (·.2)).filter fun n => n.kind == .placeholder).map (·.lexeme) := by
  rw [snd_nodes d 0, placeholders, List.filter_map, List.map_map]
  rfl

/-- The placeholders of a tree are itself, if it is one, and those of its parts in turn. -/
theorem placeholders_mk (kind : Kind) (lexeme : String) (children : List Tree) :
    placeholders ⟨kind, lexeme, children⟩ =
      (if kind = .placeholder then [lexeme] else []) ++ children.flatMap placeholders := by
  have hall : ∀ ts : List Tree, (((Tree.nodesAll 1 ts).map (·.2)).filter
      fun n => n.kind == .placeholder).map (·.lexeme) = ts.flatMap placeholders := by
    intro ts
    induction ts with
    | nil => rfl
    | cons t ts ih =>
      rw [Tree.nodesAll, List.map_append, List.filter_append, List.map_append, ih,
        ← placeholders_eq, List.flatMap_cons]
  rw [placeholders_eq _ 0, Tree.nodes, List.map_cons, List.filter_cons, ← hall]
  by_cases h : kind = .placeholder
  · simp [h]
  · simp [h]

/-- A word has the placeholders of its parts. -/
@[simp] theorem placeholders_word (k : Keyword) (children : List Tree) :
    placeholders (.word k children) = children.flatMap placeholders := by
  simp [Tree.word, placeholders_mk]

/-- A table has the placeholders of its columns. -/
@[simp] theorem placeholders_table (n : String) (children : List Tree) :
    placeholders (.table n children) = children.flatMap placeholders := by
  simp [Tree.table, placeholders_mk]

/-- A leaf is a placeholder or has none. -/
@[simp] theorem placeholders_leaf (k : Kind) (lexeme : String) :
    placeholders (.leaf k lexeme) = if k = .placeholder then [lexeme] else [] := by
  simp [Tree.leaf, placeholders_mk]

/-- Only the placeholders are checked. -/
theorem check_congr {t t' : Tree} (h : placeholders t = placeholders t') (given : Nat)
    (strict : Bool) : check t given strict = check t' given strict := by
  unfold check
  rw [h]

variable {u : List Token} {t : Tree} {ts : List Tree}

/-! ## Parts without placeholders -/

/-- Trees without placeholders have none together. -/
theorem placeholders_flatMap (h : ∀ t ∈ ts, placeholders t = []) :
    ts.flatMap placeholders = [] :=
  List.flatMap_eq_nil_iff.2 h

/-- A column has no placeholders. -/
theorem placeholders_column (h : Column u t) : placeholders t = [] := by
  cases h <;> simp [placeholders_mk]

/-- A table by itself has no placeholders. -/
theorem placeholders_ofTable (h : Table u t) : placeholders t = [] := by
  obtain ⟨h⟩ := h
  simp

/-- What is selected has no placeholders, since it is made of columns and stars. -/
theorem placeholders_item (h : Item u t) : placeholders t = [] := by
  cases h with
  | call ht hk ha =>
    obtain ⟨ho, ha, hc⟩ := ha
    simp [placeholders_column ha]
  | column h => exact placeholders_column h
  | _ => simp [placeholders_mk]

/-- A sort key has no placeholders. -/
theorem placeholders_sortKey (h : SortKey u t) : placeholders t = [] := by
  cases h with
  | unmarked h => simp [placeholders_column h]
  | marked h => simp [placeholders_column h]

/-- No clause but `WHERE` has placeholders: a page is given by numbers. -/
theorem placeholders_clause (h : Clause u t) : placeholders t = [] := by
  cases h with
  | order ho hb hk =>
    rw [placeholders_mk, if_neg (by simp), List.nil_append]
    refine placeholders_flatMap fun key hkey => ?_
    obtain ⟨_, hkey⟩ := hk.exists_spelled key hkey
    exact placeholders_sortKey hkey
  | _ => simp

/-- The table of an `INSERT` has no placeholders. -/
theorem placeholders_target (h : Target u t) : placeholders t = [] := by
  cases h with
  | all h => simp
  | columns h hc =>
    obtain ⟨ho, hc, hclose⟩ := hc
    rw [placeholders_table]
    refine placeholders_flatMap fun column hmem => ?_
    obtain ⟨_, ⟨hcolumn⟩⟩ := hc.exists_spelled column hmem
    simp

/-- What an `INSERT` returns has no placeholders. -/
theorem placeholders_returning (h : Returning u ts) : ts.flatMap placeholders = [] := by
  cases h with
  | none => rfl
  | some hr h => simp [placeholders_column h]

/-- The type of a column has no placeholders, as its sizes are numbers. -/
theorem placeholders_columnType (h : ColumnType u t) : placeholders t = [] := by
  cases h with
  | plain => simp
  | sized h hk hs =>
    obtain ⟨ho, hs, hc⟩ := hs
    rw [placeholders_word]
    refine placeholders_flatMap fun size hmem => ?_
    obtain ⟨_, ⟨hsize⟩⟩ := hs.exists_spelled size hmem
    simp
  | withZone => simp

/-- Whether a table must be there is said by words. -/
theorem placeholders_condition {words : List Keyword} {lexeme : String}
    (h : Condition words lexeme u ts) : ts.flatMap placeholders = [] := by
  cases h <;> simp

/-! ## What a placeholder looks like -/

/-- Every placeholder of the trees has the property. -/
def Each (P : String → Prop) (ts : List Tree) : Prop := ∀ lexeme ∈ ts.flatMap placeholders, P lexeme

section Each

variable {P : String → Prop}

/-- What is asked of every placeholder is true of no trees. -/
theorem each_nil : Each P [] := by simp [Each]

/-- A property of all placeholders holds in trees in a row if it does in the first and in the
others. -/
theorem each_cons : Each P (t :: ts) ↔ Each P [t] ∧ Each P ts := by
  simp only [Each, List.flatMap_cons, List.flatMap_nil, List.append_nil, List.forall_mem_append]

/-- A property of all placeholders holds in two lists of trees if it does in each. -/
theorem each_append {ts' : List Tree} : Each P (ts ++ ts') ↔ Each P ts ∧ Each P ts' := by
  simp only [Each, List.flatMap_append, List.forall_mem_append]

/-- A property of all placeholders is asked of the parts of a tree that is none itself. -/
theorem each_mk {k : Kind} (hk : k ≠ .placeholder) (lexeme : String) :
    Each P [⟨k, lexeme, ts⟩] ↔ Each P ts := by
  simp [Each, placeholders_mk, hk]

/-- A property of all placeholders holds in trees that have none. -/
theorem each_of_eq_nil (h : ts.flatMap placeholders = []) : Each P ts := by simp [Each, h]

/-- A property of all placeholders holds in several trees if it does in each one. -/
theorem each_iff : Each P ts ↔ ∀ t ∈ ts, Each P [t] := by
  induction ts with
  | nil => simp [each_nil]
  | cons t ts ih => rw [each_cons, ih, List.forall_mem_cons]

end Each

/-- The placeholders of the trees are written with their sign and a number. -/
abbrev Written (ts : List Tree) : Prop := Each Kind.placeholder.Carries ts

/-- A placeholder among the values is a token, so it is written with its sign and a number. -/
theorem written_value (h : Spells.Value u t) (hg : Genuine u) : Written [t] := by
  cases h with
  | @literal t h =>
    by_cases hk : t.kind = .placeholder
    · have hcarries := (genuine_cons.1 hg).1
      rw [hk] at hcarries
      simpa [Each, hk] using hcarries
    · simp [Each, hk]
  | negative => simp [Each]
  | word => simp [Each]
  | now h => cases h <;> simp [Each]
  | column h => exact each_of_eq_nil (by simp [placeholders_column h])

/-- **The placeholders of a predicate are written,** by induction on how it is spelled. -/
theorem written_predicate {level : Level} (h : Predicate level u t) (hg : Genuine u) :
    Written [t] := by
  induction h with
  | @comparison u v s l r hl hs hr =>
    simp only [genuine_append, genuine_cons] at hg
    have hk : s.kind ≠ .placeholder := by
      intro hk
      rw [hk] at hs
      cases hs
    exact (each_mk hk _).2
      (each_cons.2 ⟨written_value hl hg.1, written_value hr hg.2.2⟩)
  | isNull h hs hn =>
    simp only [genuine_append] at hg
    exact (each_mk (by simp) _).2
      (each_cons.2 ⟨written_value h hg.1, each_of_eq_nil (by simp)⟩)
  | isNotNull h hs hm hn =>
    simp only [genuine_append] at hg
    exact (each_mk (by simp) _).2
      (each_cons.2 ⟨written_value h hg.1, each_of_eq_nil (by simp)⟩)
  | literal h ht => exact written_value h hg
  | parens ho h hc ih =>
    simp only [List.cons_append, genuine_cons, genuine_append] at hg
    exact ih hg.2.1
  | ofAtom h ih => exact ih hg
  | ofConjunction h ih => exact ih hg
  | and hl ha hr ihl ihr =>
    simp only [genuine_append, genuine_cons] at hg
    exact (each_mk (by simp) _).2 (each_cons.2 ⟨ihl hg.1, ihr hg.2.2⟩)
  | or hl ho hr ihl ihr =>
    simp only [genuine_append, genuine_cons] at hg
    exact (each_mk (by simp) _).2 (each_cons.2 ⟨ihl hg.1, ihr hg.2.2⟩)

/-- The placeholders of a filter are written. -/
theorem written_filter {k : Keyword} (h : Filter k u t) (hg : Genuine u) : Written [t] := by
  obtain ⟨hw, hp⟩ := h
  exact (each_mk (by simp) _).2 (written_predicate hp (genuine_cons.1 hg).2)

/-- The placeholders of a `WHERE` are written, and there are none if it is left out. -/
theorem written_where (h : Where u t) (hg : Genuine u) : Written [t] := by
  cases h with
  | none => simp [Each, Tree.implicitWhere]
  | some h => exact written_filter h hg

/-- The placeholders of a join are written, which stand in its condition. -/
theorem written_join (h : Join u t) (hg : Genuine u) : Written [t] := by
  obtain ⟨ho, ht, hp⟩ := h
  simp only [genuine_append] at hg
  refine (each_mk (by simp) _).2 (each_append.2 ⟨?_, each_cons.2 ⟨?_, ?_⟩⟩)
  · exact each_of_eq_nil (by cases ho <;> simp)
  · exact each_of_eq_nil (by simp [placeholders_ofTable ht])
  · exact written_filter hp hg.2

/-- The placeholders of the clauses of a query are written, which stand in its `WHERE`. -/
theorem written_clauses {c : Parser.Clauses} (h : Clauses u c) (hg : Genuine u) :
    Written (c.filter :: c.others) := by
  obtain ⟨hf, ho⟩ := forall_of_clauses h hg
  refine each_cons.2 ⟨?_, each_iff.2 fun t ht => ?_⟩
  · rcases hf with hf | ⟨v, hf, hv⟩
    · simp [hf, Each, Tree.implicitWhere]
    · exact written_filter hf hv
  · obtain ⟨v, hv, -⟩ := ho t ht
    exact each_of_eq_nil (by simp [placeholders_clause hv])

/-- The placeholders of a tuple are written. -/
theorem written_tuple (h : Tuple u t) (hg : Genuine u) : Written [t] := by
  obtain ⟨ho, hv, hc⟩ := h
  simp only [List.cons_append, genuine_cons, genuine_append] at hg
  refine (each_mk (by simp) _).2 (each_iff.2 fun v hmem => ?_)
  obtain ⟨_, hv, hgv⟩ := (forall_of_commaList hv hg.2.1).2 v hmem
  exact written_value hv hgv

/-- The placeholders of an assignment are written, which stand in its value. -/
theorem written_assignment (h : Assignment u t) (hg : Genuine u) : Written [t] := by
  obtain ⟨ht, hs, hv⟩ := h
  simp only [genuine_cons] at hg
  refine (each_mk (by simp) _).2 (each_cons.2 ⟨?_, written_value hv hg.2.2⟩)
  exact each_of_eq_nil (by simp)

/-- The placeholders of a modifier are written, which stand in a default. -/
theorem written_modifier (h : Modifier u t) (hg : Genuine u) : Written [t] := by
  cases h with
  | default hd hv => exact (each_mk (by simp) _).2 (written_value hv (genuine_cons.1 hg).2)
  | onUpdate ho ht hn => exact each_of_eq_nil (by cases hn <;> simp)
  | _ => exact each_of_eq_nil (by simp)

/-- The placeholders of a column's definition are written, which stand in its modifiers. -/
theorem written_columnDefinition (h : ColumnDefinition u t) (hg : Genuine u) : Written [t] := by
  obtain ⟨ht, hu, hm⟩ := h
  simp only [List.cons_append, genuine_cons, genuine_append] at hg
  refine (each_mk (by simp) _).2 (each_cons.2 ⟨?_, each_iff.2 fun m hmem => ?_⟩)
  · exact each_of_eq_nil (by simp [placeholders_columnType hu])
  · obtain ⟨_, hm, hgm⟩ := forall_of_many hm hg.2.2 m hmem
    exact written_modifier hm hgm

/-- The placeholders of a statement are written with their sign and a number. -/
theorem written_statement (h : Statement u t) (hg : Genuine u) : Written [t] := by
  cases h with
  | select hs hi hf ht hj hc =>
    simp only [List.cons_append, genuine_cons, genuine_append] at hg
    rw [List.append_assoc, List.cons_append]
    refine (each_mk (by simp) _).2 (each_append.2 ⟨?_, each_cons.2 ⟨?_,
      each_append.2 ⟨?_, written_clauses hc hg.2.2⟩⟩⟩)
    · refine each_of_eq_nil (placeholders_flatMap fun t hmem => ?_)
      obtain ⟨_, ht⟩ := hi.exists_spelled t hmem
      exact placeholders_item ht
    · refine (each_mk (by simp) _).2
        (each_of_eq_nil (placeholders_flatMap fun t hmem => ?_))
      obtain ⟨_, ht⟩ := ht.exists_spelled t hmem
      exact placeholders_ofTable ht
    · refine each_iff.2 fun t hmem => ?_
      obtain ⟨_, ht, hgt⟩ := forall_of_many hj hg.2.1.2 t hmem
      exact written_join ht hgt
  | insert hi ho ht hv hw hr =>
    simp only [List.cons_append, genuine_cons, genuine_append] at hg
    refine (each_mk (by simp) _).2 (each_cons.2 ⟨?_, each_cons.2 ⟨?_, ?_⟩⟩)
    · exact each_of_eq_nil (by simp [placeholders_target ht])
    · refine (each_mk (by simp) _).2 (each_iff.2 fun t hmem => ?_)
      obtain ⟨_, ht, hgt⟩ := (forall_of_commaList hw hg.2.2.1.2.2).2 t hmem
      exact written_tuple ht hgt
    · exact each_of_eq_nil (placeholders_returning hr)
  | update ht hu hs ha hw =>
    simp only [List.cons_append, genuine_cons, genuine_append] at hg
    refine (each_mk (by simp) _).2 (each_cons.2 ⟨?_, each_cons.2 ⟨?_, ?_⟩⟩)
    · exact each_of_eq_nil (by simp [placeholders_ofTable hu])
    · refine (each_mk (by simp) _).2 (each_iff.2 fun t hmem => ?_)
      obtain ⟨_, ht, hgt⟩ := (forall_of_commaList ha hg.2.1.2.2).2 t hmem
      exact written_assignment ht hgt
    · exact written_where hw hg.2.2
  | delete hd hf hu hw =>
    simp only [List.cons_append, genuine_cons, genuine_append] at hg
    refine (each_mk (by simp) _).2 (each_cons.2 ⟨?_, written_where hw hg.2.2.2⟩)
    exact each_of_eq_nil (by simp [placeholders_ofTable hu])
  | truncate ht hs hu => exact each_of_eq_nil (by simp [placeholders_ofTable hu])
  | drop hd ht hc hu =>
    exact each_of_eq_nil (by simp [placeholders_condition hc, placeholders_ofTable hu])
  | create hc ht hi hu =>
    simp only [List.cons_append, genuine_cons, genuine_append] at hg
    refine (each_mk (by simp) _).2
      (each_append.2 ⟨each_of_eq_nil (placeholders_condition hi), ?_⟩)
    obtain ⟨hn, ⟨ho, hcolumns, hclose⟩⟩ := hu
    simp only [List.cons_append, genuine_cons, genuine_append] at hg
    refine (each_mk (by simp) _).2 (each_iff.2 fun t hmem => ?_)
    obtain ⟨_, ht, hgt⟩ := (forall_of_commaList hcolumns hg.2.2.2.2.2.1).2 t hmem
    exact written_columnDefinition ht hgt

/-- **A placeholder of a text** is its sign with a number behind it. -/
theorem carries_of_mem_placeholders {sql : String} (h : Grammar.parse sql = .ok t) :
    ∀ lexeme ∈ placeholders t, Kind.placeholder.Carries lexeme := by
  obtain ⟨u, v, htokens, hu, -⟩ := Grammar.spells_of_parse h
  have hg : Genuine (u ++ v) := htokens ▸ genuine_tokenize sql
  simpa [Each] using written_statement hu (genuine_append.1 hg).1

end Arguments

/-! ## Other trees in the place of placeholders -/

open Grammar Grammar.Spells

mutual

/-- The tree with another tree in the place of each placeholder. -/
def Grammar.Tree.replace (σ : Tree → Tree) : Tree → Tree
  | ⟨kind, lexeme, children⟩ =>
    if kind = .placeholder then σ ⟨kind, lexeme, children⟩
    else ⟨kind, lexeme, replaceAll σ children⟩

/-- Several trees, one by one. -/
def Grammar.Tree.replaceAll (σ : Tree → Tree) : List Tree → List Tree
  | [] => []
  | t :: ts => t.replace σ :: replaceAll σ ts

end

namespace Grammar.Tree

open Arguments (placeholders)

variable {σ : Tree → Tree}

/-- Replacing in several trees is replacing in each of them. -/
theorem replaceAll_eq_map (ts : List Tree) : replaceAll σ ts = ts.map (·.replace σ) := by
  induction ts with
  | nil => rfl
  | cons t ts ih => rw [replaceAll, ih, List.map_cons]

/-- Replacing in a tree that is no placeholder is replacing in its parts. -/
theorem replace_mk {kind : Kind} (h : kind ≠ .placeholder) (lexeme : String)
    (children : List Tree) :
    (Tree.mk kind lexeme children).replace σ = ⟨kind, lexeme, children.map (·.replace σ)⟩ := by
  rw [replace, if_neg h, replaceAll_eq_map]

/-- A placeholder itself is replaced. -/
theorem replace_placeholder (lexeme : String) :
    (leaf .placeholder lexeme).replace σ = σ (.leaf .placeholder lexeme) := by
  rw [leaf, replace, if_pos rfl]

/-- A word stays, and its parts are replaced in. -/
@[simp] theorem replace_word (k : Keyword) (children : List Tree) :
    (word k children).replace σ = word k (children.map (·.replace σ)) :=
  replace_mk (by simp) _ _

/-- A table stays, and its columns are replaced in. -/
@[simp] theorem replace_table (n : String) (children : List Tree) :
    (table n children).replace σ = table n (children.map (·.replace σ)) :=
  replace_mk (by simp) _ _

mutual

/-- A tree without placeholders stays as it is. -/
theorem replace_eq_self : ∀ t : Tree, placeholders t = [] → t.replace σ = t
  | ⟨kind, lexeme, children⟩, h => by
    rw [Arguments.placeholders_mk] at h
    obtain ⟨hkind, hchildren⟩ := List.append_eq_nil_iff.1 h
    have hother : kind ≠ .placeholder := fun h => by
      rw [if_pos h] at hkind
      cases hkind
    rw [replace_mk hother, map_replace_eq_self children hchildren]

/-- Trees without placeholders stay as they are. -/
theorem map_replace_eq_self :
    ∀ ts : List Tree, ts.flatMap placeholders = [] → ts.map (·.replace σ) = ts
  | [], _ => rfl
  | t :: ts, h => by
    rw [List.flatMap_cons] at h
    obtain ⟨ht, hts⟩ := List.append_eq_nil_iff.1 h
    rw [List.map_cons, replace_eq_self t ht, map_replace_eq_self ts hts]

end

end Grammar.Tree

namespace Grammar

variable {u : List Token} {t : Tree}

/-- A value that is no placeholder itself has none. -/
theorem placeholders_value (h : Spells.Value u t) (hkind : t.kind ≠ .placeholder) :
    Arguments.placeholders t = [] := by
  cases h with
  | @literal t h =>
    have hother : t.kind ≠ .placeholder := hkind
    simpa using hother
  | negative hm hn => simp
  | word h hk => simp
  | now h => cases h <;> simp
  | column h ht => exact Arguments.placeholders_column h

/-- A value that is a placeholder is nothing else. -/
theorem exists_placeholder (h : Spells.Value u t) (hkind : t.kind = .placeholder) :
    ∃ lexeme, t = .leaf .placeholder lexeme := by
  cases h with
  | @literal t h =>
    have hother : t.kind = .placeholder := hkind
    exact ⟨t.lexeme, by rw [hother]⟩
  | now h => cases h <;> cases hkind
  | column h => cases h <;> cases hkind
  | _ => cases hkind

end Grammar

end MiniSql
