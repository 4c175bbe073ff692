/-
# Sorted rows

What a sort makes of rows is told by their keys, each a position with a direction
(`Rowset.Sorts`): it is a rearrangement, any two rows stand in the order of the first key on which
they differ, and rows that agree on every key stand as they stood. For a key on which rows are
told apart

| direction | rows |
| --- | --- |
| ascending | the lesser value first, `NULL` before all others |
| descending | the greater value first, `NULL` behind all others |

The order of values is none of all values, but it is one of the values of a column, as they are of
one type (`Rowset.Typed`). Rows of stored tables that are joined have columns of one type each, and
so has whatever is picked from them.
-/

import MiniSql.Proofs.Query.Parts
import MiniSql.Proofs.Store.WellTyped
import MiniSql.Proofs.Value.SortOrder

namespace MiniSql

/-! ## Sorting by an order -/

section Order

variable {α : Type} {cmp : α → α → Ordering}

/-- The test for not being greater says so. -/
theorem bne_gt_iff {o : Ordering} : (o != .gt) = true ↔ o ≠ .gt := by simp

/-- Not being greater is transitive. -/
theorem ne_gt_trans [Std.TransCmp cmp] {a b c : α} (hab : (cmp a b != .gt) = true)
    (hbc : (cmp b c != .gt) = true) : (cmp a c != .gt) = true := by
  have hle : (cmp a c).isLE = true :=
    Std.TransCmp.isLE_trans (Ordering.isLE_iff_ne_gt.2 (bne_gt_iff.1 hab))
      (Ordering.isLE_iff_ne_gt.2 (bne_gt_iff.1 hbc))
  exact bne_gt_iff.2 (Ordering.isLE_iff_ne_gt.1 hle)

/-- Not being greater is total. -/
theorem ne_gt_total [Std.OrientedCmp cmp] (a b : α) :
    ((cmp a b != .gt) || (cmp b a != .gt)) = true := by
  have hswap : cmp b a = (cmp a b).swap := Std.OrientedCmp.eq_swap
  rw [hswap]
  cases cmp a b <;> rfl

variable [Std.TransCmp cmp]

/-- A sorted list has no greater element before a lesser one. -/
theorem pairwise_mergeSort (l : List α) :
    (l.mergeSort fun a b => cmp a b != .gt).Pairwise fun a b => cmp a b ≠ .gt := by
  have hsorted : (l.mergeSort fun a b => cmp a b != .gt).Pairwise
      fun a b => (cmp a b != .gt) = true :=
    List.pairwise_mergeSort (fun _ _ _ => ne_gt_trans) ne_gt_total l
  exact hsorted.imp bne_gt_iff.1

/-- What compares as equal stays as it stands. -/
theorem filter_mergeSort {p : α → Bool} {l : List α}
    (hp : ∀ a b, p a = true → p b = true → cmp a b = .eq) :
    (l.mergeSort fun a b => cmp a b != .gt).filter p = l.filter p := by
  have hequal : (l.filter p).Pairwise fun a b => (cmp a b != .gt) = true := by
    refine List.pairwise_of_forall_mem_list fun a ha b hb => ?_
    rw [hp a b (List.mem_filter.1 ha).2 (List.mem_filter.1 hb).2]
    rfl
  have hkept : (l.filter p).Sublist (l.mergeSort fun a b => cmp a b != .gt) :=
    List.sublist_mergeSort (fun _ _ _ => ne_gt_trans) ne_gt_total hequal List.filter_sublist
  have hpicked : (l.filter p).Sublist ((l.mergeSort fun a b => cmp a b != .gt).filter p) := by
    simpa using hkept.filter p
  refine (hpicked.eq_of_length ?_).symm
  exact ((List.mergeSort_perm l _).filter p).length_eq.symm

end Order

namespace Rowset

open MiniSql.Relation (valueAt Part)

/-! ## The order of rows -/

section Keys

variable {key : Nat × Direction} {keys before after : List (Nat × Direction)} {a b : Row}

/-- The order of two rows by one key. -/
def orderBy (key : Nat × Direction) (a b : Row) : Ordering :=
  match key.2 with
  | .ascending => (valueAt key.1 a).sortOrder (valueAt key.1 b)
  | .descending => ((valueAt key.1 a).sortOrder (valueAt key.1 b)).swap

/-- The rows have values that sort alike, for every key. -/
def Agree (keys : List (Nat × Direction)) (a b : Row) : Prop :=
  ∀ key ∈ keys, (valueAt key.1 a).sortOrder (valueAt key.1 b) = .eq

instance (keys : List (Nat × Direction)) (a b : Row) : Decidable (Agree keys a b) :=
  inferInstanceAs (Decidable (∀ key ∈ keys, (valueAt key.1 a).sortOrder (valueAt key.1 b) = .eq))

/-- The rows stand in order: for every key, if they agree on the keys before. -/
def InOrder (keys : List (Nat × Direction)) (a b : Row) : Prop :=
  ∀ before key after, keys = before ++ key :: after → Agree before a b → orderBy key a b ≠ .gt

/-- The first key decides, and the others where it does not. -/
theorem compareRows_cons : compareRows (key :: keys) a b =
    (orderBy key a b).then (compareRows keys a b) := by
  obtain ⟨i, direction⟩ := key
  cases direction <;> rfl

/-- A direction changes no tie. -/
theorem orderBy_eq_iff :
    orderBy key a b = .eq ↔ (valueAt key.1 a).sortOrder (valueAt key.1 b) = .eq := by
  unfold orderBy
  split
  · rfl
  · exact Ordering.swap_eq_eq

/-- Rows agree on keys if they do on each. -/
theorem agree_cons : Agree (key :: keys) a b ↔
    (valueAt key.1 a).sortOrder (valueAt key.1 b) = .eq ∧ Agree keys a b :=
  List.forall_mem_cons

/-- Rows compare as equal where they agree on all keys. -/
theorem compareRows_eq_iff : compareRows keys a b = .eq ↔ Agree keys a b := by
  induction keys with
  | nil => exact iff_of_true rfl fun _ hkey => nomatch hkey
  | cons key keys ih =>
    rw [compareRows_cons, Ordering.then_eq_eq, orderBy_eq_iff, ih, agree_cons]

/-- Rows are in order by the first key, and by the others where it ties. -/
theorem inOrder_cons : InOrder (key :: keys) a b ↔
    orderBy key a b ≠ .gt ∧ (orderBy key a b = .eq → InOrder keys a b) := by
  constructor
  · intro h
    refine ⟨h [] key keys rfl fun _ hkey => (List.not_mem_nil hkey).elim, fun heq => ?_⟩
    rintro before key' after rfl hagree
    exact h (key :: before) key' after rfl (agree_cons.2 ⟨orderBy_eq_iff.1 heq, hagree⟩)
  · rintro ⟨hfirst, hrest⟩ before key' after hkeys hagree
    cases before with
    | nil =>
      cases hkeys
      exact hfirst
    | cons key'' before =>
      cases hkeys
      obtain ⟨heq, hagree⟩ := agree_cons.1 hagree
      exact hrest (orderBy_eq_iff.2 heq) before key' after rfl hagree

/-- **The comparison of rows is the lexicographic one.** -/
theorem compareRows_ne_gt_iff : compareRows keys a b ≠ .gt ↔ InOrder keys a b := by
  induction keys with
  | nil =>
    have hequal : compareRows [] a b ≠ .gt := fun h => nomatch h
    refine iff_of_true hequal fun before key after hkeys _ => ?_
    cases before <;> cases hkeys
  | cons key keys ih =>
    rw [compareRows_cons, inOrder_cons, ← ih]
    cases orderBy key a b <;> simp [Ordering.then]

/-- `NULL` stands first where a key ascends and last where it descends. -/
theorem InOrder.null (h : InOrder (before ++ key :: after) a b) (hagree : Agree before a b) :
    match key.2 with
    | .ascending => valueAt key.1 b = .null → valueAt key.1 a = .null
    | .descending => valueAt key.1 a = .null → valueAt key.1 b = .null := by
  have hkey := h before key after rfl hagree
  obtain ⟨i, direction⟩ := key
  cases direction with
  | ascending =>
    intro hnull
    have hle : (valueAt i a).sortOrder (valueAt i b) ≠ .gt := hkey
    rw [hnull] at hle
    cases ha : valueAt i a <;> first | rfl | exact absurd (ha ▸ rfl) hle
  | descending =>
    intro hnull
    have hle : ((valueAt i a).sortOrder (valueAt i b)).swap ≠ .gt := hkey
    rw [hnull] at hle
    cases hb : valueAt i b <;> first | rfl | exact absurd (hb ▸ rfl) hle

end Keys

/-! ## Columns of one type each -/

/-- The row has a value for each type, of this type or `NULL`. -/
def Fits (types : List DataType) (row : Row) : Prop :=
  List.Forall₂ (fun type v => Value.Among (· = type) v) types row

/-- Each column has values of one type. -/
structure Typed (s : Rowset) (types : List DataType) : Prop where
  width : types.length = s.columns.length
  rows : ∀ row ∈ s.rows, Fits types row

section Order

variable {types : List DataType} {keys : List (Nat × Direction)}

/-- What the rows have at one position is of one type. -/
theorem exists_type (types : List DataType) (i : Nat) :
    ∃ type, ∀ row, Fits types row → (valueAt i row).Among (· = type) := by
  refine ⟨types[i]?.getD .boolean, fun row hrow => ?_⟩
  obtain ⟨hlength, hall⟩ := List.forall₂_iff_get.1 hrow
  unfold Relation.valueAt
  by_cases hi : i < row.length
  · have htype : i < types.length := hlength ▸ hi
    rw [List.getElem?_eq_getElem hi, List.getElem?_eq_getElem htype]
    exact hall i htype hi
  · rw [List.getElem?_eq_none (Nat.le_of_not_lt hi)]
    exact Value.among_null _

/-- One key orders the rows. -/
theorem transCmp_orderBy (types : List DataType) (key : Nat × Direction) :
    Std.TransCmp fun a b : {row // Fits types row} => orderBy key a.1 b.1 := by
  obtain ⟨i, direction⟩ := key
  obtain ⟨type, htype⟩ := exists_type types i
  have hvalues : Std.TransCmp fun a b : {row // Fits types row} =>
      (valueAt i a.1).sortOrder (valueAt i b.1) :=
    { eq_swap := Value.sortOrder_swap _ _
      isLE_trans := by
        intro a b c hab hbc
        rw [Ordering.isLE_iff_ne_gt] at hab hbc ⊢
        exact (Value.preordered_ofType type).trans _ _ _ (htype a.1 a.2) (htype b.1 b.2)
          (htype c.1 c.2) hab hbc }
  cases direction with
  | ascending => exact hvalues
  | descending =>
    have hturned : (fun a b : {row // Fits types row} => orderBy (i, .descending) a.1 b.1) =
        fun a b => (valueAt i b.1).sortOrder (valueAt i a.1) := by
      funext a b
      exact (Value.sortOrder_swap _ _).symm
    rw [hturned]
    exact hvalues.opposite

/-- **Keys order the rows**, one behind the other. -/
theorem transCmp_compareRows (types : List DataType) (keys : List (Nat × Direction)) :
    Std.TransCmp fun a b : {row // Fits types row} => compareRows keys a.1 b.1 := by
  induction keys with
  | nil => exact { eq_swap := rfl, isLE_trans := fun _ _ => rfl }
  | cons key keys ih =>
    have hkey := transCmp_orderBy types key
    have hlex : (fun a b : {row // Fits types row} => compareRows (key :: keys) a.1 b.1) =
        compareLex (fun a b => orderBy key a.1 b.1) fun a b => compareRows keys a.1 b.1 := by
      funext a b
      exact compareRows_cons
    rw [hlex]
    infer_instance

/-- What a sort makes of rows: the same rows, each two of them in order, and those that agree on
all keys as they stood. By each key `NULL` stands before or behind the values, among rows that agree
on the keys before it. -/
structure Sorts (keys : List (Nat × Direction)) (rows sorted : List Row) : Prop where
  perm : sorted.Perm rows
  inOrder : sorted.Pairwise (InOrder keys)
  nulls : ∀ before i direction after, keys = before ++ (i, direction) :: after →
    sorted.Pairwise fun a b => Agree before a b →
      match direction with
      | .ascending => valueAt i b = .null → valueAt i a = .null
      | .descending => valueAt i a = .null → valueAt i b = .null
  stable : ∀ row ∈ rows,
    sorted.filter (fun other => Agree keys row other) =
      rows.filter fun other => Agree keys row other

/-- **Rows with columns of one type each are sorted by keys.** -/
theorem sorts_mergeSort {rows : List Row} (hrows : ∀ row ∈ rows, Fits types row) :
    Sorts keys rows (rows.mergeSort fun a b => compareRows keys a b != .gt) := by
  obtain ⟨fitting, rfl⟩ : ∃ fitting : List {row // Fits types row}, fitting.map (·.1) = rows :=
    ⟨rows.attachWith _ hrows, List.attachWith_map_subtype_val hrows⟩
  have horder := transCmp_compareRows types keys
  have hsorted : (fitting.mergeSort fun a b => compareRows keys a.1 b.1 != .gt).map (·.1) =
      (fitting.map (·.1)).mergeSort fun a b => compareRows keys a b != .gt :=
    List.map_mergeSort (f := Subtype.val) fun _ _ _ _ => rfl
  have hinOrder : ((fitting.mergeSort fun a b => compareRows keys a.1 b.1 != .gt).map
      (·.1)).Pairwise (InOrder keys) :=
    (pairwise_mergeSort fitting).map _ fun _ _ => compareRows_ne_gt_iff.1
  rw [← hsorted]
  constructor
  · exact (List.mergeSort_perm fitting _).map _
  · exact hinOrder
  · rintro before i direction after rfl
    refine hinOrder.imp fun hab hagree => ?_
    have hnull := hab.null hagree
    cases direction <;> exact hnull
  · intro row hrow
    obtain ⟨fit, -, rfl⟩ := List.mem_map.1 hrow
    rw [List.filter_map, List.filter_map]
    refine congrArg _ (filter_mergeSort fun a b ha hb => ?_)
    have haAgree := compareRows_eq_iff.2 (of_decide_eq_true ha)
    have hbAgree := compareRows_eq_iff.2 (of_decide_eq_true hb)
    have haEqual : compareRows keys a.1 fit.1 = .eq :=
      @Std.OrientedCmp.eq_symm _ _ horder.toOrientedCmp _ _ haAgree
    exact @Std.TransCmp.eq_trans _ _ horder _ _ _ haEqual hbAgree

/-- The rows of a set are sorted by keys that it has. -/
theorem sort_eq_ok_iff {s sorted : Rowset} {refs : List (ColumnRef × Direction)} :
    s.sort refs = .ok sorted ↔ ∃ positions, resolveKeys s.columns refs = .ok positions ∧
      sorted = ⟨s.columns, s.rows.mergeSort fun a b => compareRows positions a b != .gt⟩ := by
  unfold sort
  rw [Except.bind_eq_ok]
  refine exists_congr fun positions => and_congr_right' ?_
  constructor
  · intro h
    cases h
    rfl
  · rintro rfl
    rfl

end Order

/-! ## Rows of stored tables -/

section Tables

variable {s : Rowset} {types : List DataType} {rs : List Relation} {r : Relation} {part : Row}

/-- The types of a table's columns. -/
def typesOf (r : Relation) : List DataType := r.schema.columns.map (·.type)

/-- The part of a well-typed relation in a row has its types. -/
theorem fits_of_part (hr : r.WellTyped) (h : r.Part part) : Fits (typesOf r) part := by
  rw [Fits, typesOf, List.forall₂_map_left_iff]
  rcases h with h | rfl
  · obtain ⟨e, he, rfl⟩ := List.mem_map.1 h
    refine (hr.rows e he).imp fun c v hv type htype => ?_
    rcases hv.1 with rfl | hv
    · cases htype
    · exact Option.some.inj (htype.symm.trans hv)
  · refine List.forall₂_iff_get.2 ⟨List.length_replicate.symm, fun i _ hi => ?_⟩
    rw [List.get_eq_getElem, List.get_eq_getElem, List.getElem_replicate]
    exact Value.among_null _

/-- The parts of several relations have the types of all, one behind the other. -/
theorem fits_flatten {parts : List Row} (hrs : ∀ r ∈ rs, r.WellTyped)
    (h : List.Forall₂ Part rs parts) : Fits (rs.flatMap typesOf) parts.flatten := by
  induction h with
  | nil => exact .nil
  | cons hpart _ ih =>
    obtain ⟨hr, hrs⟩ := List.forall_mem_cons.1 hrs
    exact List.rel_append (fits_of_part hr hpart) (ih hrs)

/-- Rows that are put together of rows of tables have columns of one type each. -/
theorem InParts.typed (h : s.InParts rs) (hrs : ∀ r ∈ rs, r.WellTyped) :
    s.Typed (rs.flatMap typesOf) := by
  constructor
  · rw [h.columns, List.length_flatMap, List.length_flatMap]
    refine congrArg List.sum (List.map_congr_left fun r _ => ?_)
    rw [typesOf, List.length_map]
    exact r.schema.length_labels.symm
  · intro row hrow
    obtain ⟨parts, hparts, rfl⟩ := h.parts row hrow
    exact fits_flatten hrs hparts

/-- Some of the rows fit as all do. -/
theorem Typed.of_mem {s' : Rowset} (h : s.Typed types) (hcolumns : s'.columns = s.columns)
    (hrows : ∀ row ∈ s'.rows, row ∈ s.rows) : s'.Typed types :=
  ⟨h.width.trans (congrArg _ hcolumns.symm), fun row hrow => h.rows row (hrows row hrow)⟩

/-- What is shown of columns of one type each are such columns. -/
theorem Typed.project {items : List SelectItem} {shown : Rowset} (h : s.Typed types)
    (hshown : s.project items = .ok shown) : ∃ types', shown.Typed types' := by
  obtain ⟨picked, -, hshown⟩ := Except.bind_eq_ok.1 hshown
  cases hshown
  choose type htype using exists_type types
  refine ⟨picked.flatten.map type, ?_, fun row hrow => ?_⟩
  · rw [List.length_map, List.length_map]
  · obtain ⟨taken, htaken, rfl⟩ := List.mem_map.1 hrow
    rw [Fits, List.forall₂_map_left_iff, List.forall₂_map_right_iff, List.forall₂_same]
    exact fun i _ => htype i taken (h.rows taken htaken)

end Tables

end Rowset
end MiniSql
