/-
# The order of assignments in a session

`SET a = b, b = a` swaps two columns: the assignments of an `UPDATE` are made at once, from the rows
as they were. Where none of them reads the clock, texts that differ in their order leave the same
session, and every row that is found has what is assigned to it (`Session.execute_rearranged`).

| what may differ | what may not |
| --- | --- |
| for what a refused text is refused | whether it is refused |
| | the answer, the database and the clock |
-/

import MiniSql.Proofs.Plan.Rearranged
import MiniSql.Proofs.Session.Stamps
import MiniSql.Proofs.Store.Assignments
import MiniSql.Proofs.Reference.Resolve

namespace MiniSql

open Timed
open Grammar (Tree)
open MiniSql.Relation (valueAt)

/-! ## Copying one column into another -/

namespace Schema

variable {s : Schema} {row row' : Row} {assignments : List (String × Expression)} {i j : Nat}
  {c d : Column}

/-- A name without full stops means the column of that name, where no name has one. -/
theorem resolve_own (hs : (s.columns.map (·.name)).Nodup)
    (hstops : ∀ c ∈ s.columns, '.' ∉ c.name.toList) (hi : s.columns[i]? = some c) :
    ColumnRef.resolve ⟨none, c.name⟩ s.labels = .ok i := by
  have htells := ColumnRef.resolve_tells_covers ⟨none, c.name⟩
    (fun d : Column => label s.name d.name) s.columns
  have hcovers (d : Column) := @ColumnRef.covers_label_iff ⟨none, c.name⟩ (s.name, d.name)
  refine (htells.found i).2 ⟨⟨c, hi, (hcovers c).2 (.inl ⟨rfl, fun _ h => nomatch h⟩)⟩, ?_⟩
  intro j d hj hd
  rcases (hcovers d).1 hd with ⟨hname, -⟩ | hconfuses
  · have hindex := Mutation.columnIndex_eq hs hi
    rw [← show d.name = c.name from hname, Mutation.columnIndex_eq hs hj] at hindex
    exact Except.ok.inj hindex
  · rcases hconfuses.stop_mem with hstop | hstop
    · exact absurd hstop (hstops d (List.mem_of_getElem? hj))
    · exact absurd hstop (hstops c (List.mem_of_getElem? hi))

/-- Where two columns of one type are assigned to each other, and neither is stamped, each has what
the other had. -/
def Swaps (s : Schema) (assignments : List (String × Expression)) (row row' : Row) : Prop :=
  ∀ (i j : Nat) (c d : Column), s.columns[i]? = some c → s.columns[j]? = some d →
    c.type = d.type → c.onUpdate = false → d.onUpdate = false →
    (c.name, .field ⟨none, d.name⟩) ∈ assignments → (d.name, .field ⟨none, c.name⟩) ∈ assignments →
    valueAt i row' = valueAt j row ∧ valueAt j row' = valueAt i row

/-- A column that is assigned another one of its type has what that one had. -/
theorem Assigns.copies (h : s.Assigns assignments row row') (hrow : s.Holds row)
    (hkept : Record.kept row = row) (hd : ColumnRef.resolve ⟨none, d.name⟩ s.labels = .ok j)
    (hi : s.columns[i]? = some c)
    (hj : s.columns[j]? = some d) (htype : c.type = d.type) (hc : c.onUpdate = false)
    (hmem : (c.name, .field ⟨none, d.name⟩) ∈ assignments) : valueAt i row' = valueAt j row := by
  obtain ⟨v, hv, stored, ⟨hcoerce, -⟩, -, hsame⟩ := h _ hmem i c hi rfl hc
  have hold : valueAt j row = v := by
    cases hv with
    | value hv =>
      obtain ⟨hfield, -⟩ := gives_ofExcept.1 (hv ⟨0, []⟩)
      rw [Expression.fieldValue, hd] at hfield
      obtain ⟨_, hok, hfield⟩ := Except.bind_eq_ok.1 hfield
      cases hok
      split at hfield
      · rename_i w hw
        cases hfield
        rw [valueAt, hw, Option.getD_some]
      · cases hfield
  have hholds := (hrow.valueAt hj).1
  rw [hold, ← htype] at hholds
  rw [Value.coerce_of_type hholds] at hcoerce
  have hv : v.RoundTrips := by
    show v.kept = v
    rw [← hold, ← Record.valueAt_kept, hkept]
  rw [hsame hv, hold, Except.ok.inj hcoerce]

/-- Assigning two columns to each other swaps their values. -/
theorem Assigns.swaps (h : s.Assigns assignments row row') (hs : s.WellFormed)
    (hrow : s.Holds row) (hkept : Record.kept row = row)
    (hstops : ∀ c ∈ s.columns, '.' ∉ c.name.toList) : s.Swaps assignments row row' := by
  intro i j c d hi hj htype hc hd hcd hdc
  have hown {k : Nat} {c : Column} (hk : s.columns[k]? = some c) :=
    resolve_own hs.names_nodup hstops hk
  exact ⟨h.copies hrow hkept (hown hj) hi hj htype hc hcd,
    h.copies hrow hkept (hown hi) hj hi htype.symm hd hdc⟩

end Schema

/-! ## Statements -/

namespace Session

variable {options : Options} {s : Session} {st st' : Statement} {name : String}
  {assignments assignments' : List Tree} {p : Tree}

/-- With their arguments none of the assignments to the table reads the clock. -/
def Untimed (s : Session) (name : String) (assignments : List Tree) (arguments : List Value) :
    Prop :=
  ∀ r assigned, s.table? name = some r →
    assignments.mapM (Planning.assignment arguments) = .ok assigned →
      ∀ a ∈ assigned, r.schema.Untimed a

/-- Texts that assign the same in different orders leave the same session. -/
theorem concur_rearranged (hst : Grammar.parse st.sql = .ok (.updateSet name assignments p))
    (hst' : Grammar.parse st'.sql = .ok (.updateSet name assignments' p))
    (harguments : st'.arguments = st.arguments) (hperm : assignments'.Perm assignments)
    (huntimed : s.Untimed name assignments st.arguments) : s.Concur st' st := by
  have hsame : s.plan st' =
      Plan.ofText st'.sql st.arguments s.database.options.strictParams := by
    rw [plan, harguments]
  cases hplan : s.plan st with
  | error x =>
    cases hplan' : s.plan st' with
    | error x' => exact concur_of_faults hplan' hplan
    | ok plan =>
      obtain ⟨_, _, _, -, hok, -⟩ :=
        Plan.rearranged_updateSet hst' hst hperm.symm (hsame.symm.trans hplan')
      cases hplan.symm.trans hok
  | ok plan =>
    obtain ⟨e, assigned, assigned', rfl, hplan', hassigned, hplanned⟩ :=
      Plan.rearranged_updateSet hst hst' hperm hplan
    refine concur_of_runs (hsame.trans hplan') hplan ?_
    cases hr : s.table? name with
    | none =>
      intro t
      exact ⟨t, .inr ⟨_, _, Plan.refuses_run rfl hr, Plan.refuses_run rfl hr⟩⟩
    | some r =>
      rw [Plan.run_update hr, Plan.run_update hr]
      have hupdate := Mutation.concur_update hassigned (huntimed r assigned hr hplanned) e
      exact hupdate.bind fun _ => .refl _

/-- **Assignments are made at once.** Texts that differ in the order of their assignments leave the
same session, and where one is answered the other has the same answer. Every row that the predicate
finds has what is assigned to it, computed from the row as it was, stored as the column stores it,
and kept as it is if it round trips; so two columns of one type are swapped where each is assigned
the other. -/
theorem Reached.execute_rearranged (hs : s.Reached options)
    (hst : Grammar.parse st.sql = .ok (.updateSet name assignments p))
    (hst' : Grammar.parse st'.sql = .ok (.updateSet name assignments' p))
    (harguments : st'.arguments = st.arguments) (hperm : assignments'.Perm assignments)
    (huntimed : s.Untimed name assignments st.arguments) :
    s.Concur st' st ∧ ∀ answer, (s.execute st).1 = .ok answer →
      ∃ e assigned r r' targets found mid, s.plan st = .ok (.update name e assigned) ∧
        s.table? name = some r ∧ (s.execute st).2.table? name = some r' ∧
        Mutation.targets r.schema [] assigned = .ok targets ∧
        Mutation.Hits r.schema e targets s.clock r.scan found mid ∧
        answer = .updated found.length ∧
        ∀ old ∈ r.scan, old.1 ∈ found.map (·.1) → ∃ new ∈ r'.scan, new.1 = old.1 ∧
          r.schema.Assigns assigned old.2 new.2 ∧
          ((∀ c ∈ r.schema.columns, '.' ∉ c.name.toList) →
            r.schema.Swaps assigned old.2 new.2) := by
  refine ⟨concur_rearranged hst hst' harguments hperm huntimed, fun answer hanswer => ?_⟩
  rcases execute_cases s st with ⟨-, x, hx⟩ | ⟨plan, c, hplan, -, hgives, hafter⟩
  · rw [hanswer] at hx
    cases hx
  obtain ⟨assigned, e, -, hplanned, -, rfl⟩ := (Plan.ofText_updateSet_eq_ok hst).1 hplan
  rw [hanswer] at hgives
  simp only [Plan.carryOut, gives_bind, gives_ofExcept, gives_pure, Prod.exists, Prod.mk.injEq,
    Except.ok.injEq] at hgives
  obtain ⟨r, _, ⟨hr, rfl⟩, r', n, _, hupdate, ⟨rfl, rfl⟩, -⟩ := hgives
  have hr : s.table? name = some r := Catalog.get?_of_tableToWrite hr
  have hwell : r.WellTyped := (hs.stored _ (SortedMap.mem_entries_of_get? hr)).wellTyped
  obtain ⟨targets, found, mid, htargets, hhits, rfl, hassigns⟩ :=
    Relation.update_assigns hwell (huntimed r assigned hr hplanned) hupdate
  refine ⟨e, assigned, r, r', targets, found, mid, hplan, hr, ?_, htargets, hhits, rfl, ?_⟩
  · rw [table?, hafter]
    exact Catalog.get?_put_self s.database.catalog name r'
  · intro old hold hfound
    obtain ⟨new, hnew, hid, hcells⟩ := hassigns old hold hfound
    exact ⟨new, hnew, hid, hcells,
      hcells.swaps hwell.schema (hwell.rows old hold) (Relation.kept_of_mem_scan hold)⟩

/-- A session with three rows that have two numbers each. -/
def threePairs : Session :=
  ((new .standard ⟨0, []⟩).run [⟨"CREATE TABLE t (a INT, b INT, c INT DEFAULT 0)", []⟩,
    ⟨"INSERT INTO t VALUES (1, 2, 7), (3, NULL, 8), (5, 6, 9)", []⟩]).2

/-- An `UPDATE` that swaps the numbers of the first two rows. -/
def swap : Statement := ⟨"UPDATE t SET a = b, b = a, c = DEFAULT WHERE a < $1", [.integer 5]⟩

/-- The same assignments from the last to the first. -/
def swapBackwards : Statement :=
  ⟨"UPDATE t SET c = DEFAULT, b = a, a = b WHERE a < $1", [.integer 5]⟩

/-- The predicate of both. -/
def lessThanFirst : Tree := ⟨.less, "<", [.leaf .ident "a", .leaf .placeholder "$1"]⟩

/-- The assignments of the first. -/
def swapped : List Tree :=
  [⟨.equal, "=", [.leaf .ident "a", .leaf .ident "b"]⟩,
    ⟨.equal, "=", [.leaf .ident "b", .leaf .ident "a"]⟩,
    ⟨.equal, "=", [.leaf .ident "c", .word .DEFAULT []]⟩]

/-- Both orders swap the numbers. -/
theorem execute_rearranged_swap : threePairs.Concur swapBackwards swap ∧
    (threePairs.execute swap).1 = .ok (.updated 2) ∧
    (((threePairs.execute swapBackwards).2.table? "t").map fun r => r.scan.map (·.2)) =
      some [[.integer 2, .integer 1, .integer 0], [.null, .integer 3, .integer 0],
        [.integer 5, .integer 6, .integer 9]] ∧
    ∃ (assigned : List (String × Expression)) (r r' : Relation) (found : List Nat),
      threePairs.table? "t" = some r ∧
      (threePairs.execute swap).2.table? "t" = some r' ∧ found.length = 2 ∧
      ∀ old ∈ r.scan, old.1 ∈ found → ∃ new ∈ r'.scan, new.1 = old.1 ∧
        r.schema.Assigns assigned old.2 new.2 ∧ r.schema.Swaps assigned old.2 new.2 := by
  have hreached : threePairs.Reached .standard := reached_run _ _ _
  have hparse : Grammar.parse swap.sql = .ok (.updateSet "t" swapped lessThanFirst) := by
    decide +kernel
  have hbackwards :
      Grammar.parse swapBackwards.sql = .ok (.updateSet "t" swapped.reverse lessThanFirst) := by
    decide +kernel
  have hschema : (threePairs.table? "t").map (·.schema.columns) =
      some [.plain "a" .integer, .plain "b" .integer,
        { Column.plain "c" .integer with default := some (.value (.integer 0)) }] := by
    decide +kernel
  have hplanned : swapped.mapM (Planning.assignment swap.arguments) =
      .ok [("a", .field ⟨none, "b"⟩), ("b", .field ⟨none, "a"⟩), ("c", .default)] := by
    decide +kernel
  have huntimed : threePairs.Untimed "t" swapped swap.arguments := by
    intro r assigned hr hassigned
    rw [hr, Option.map_some, Option.some.injEq] at hschema
    rw [hplanned] at hassigned
    cases hassigned
    unfold Schema.Untimed
    rw [hschema]
    decide
  have hrows : (threePairs.execute swap).1 = .ok (.updated 2) ∧
      (((threePairs.execute swapBackwards).2.table? "t").map fun r => r.scan.map (·.2)) =
        some [[.integer 2, .integer 1, .integer 0], [.null, .integer 3, .integer 0],
          [.integer 5, .integer 6, .integer 9]] := by decide +kernel
  obtain ⟨hconcur, hcells⟩ := hreached.execute_rearranged hparse hbackwards rfl
    (List.reverse_perm swapped) huntimed
  obtain ⟨e, assigned, r, r', targets, found, mid, -, hr, hr', -, -, hanswer, hfound⟩ :=
    hcells _ hrows.1
  have hstops : ∀ c ∈ r.schema.columns, '.' ∉ c.name.toList := by
    rw [hr, Option.map_some, Option.some.injEq] at hschema
    rw [hschema]
    decide
  refine ⟨hconcur, hrows.1, hrows.2, assigned, r, r', found.map (·.1), hr, hr', ?_, ?_⟩
  · rw [List.length_map]
    exact (Answer.updated.inj hanswer).symm
  · intro old hold hid
    obtain ⟨new, hnew, hsame, hassigns, hswaps⟩ := hfound old hold hid
    exact ⟨new, hnew, hsame, hassigns, hswaps hstops⟩

end Session
end MiniSql
