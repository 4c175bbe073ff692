/-
# An insert in several forms

Texts that write one `INSERT` in several forms do the same (`Session.Reached.execute_forms`). If
they name the columns in different orders they leave the same session, and where one is answered the
other has the same answer. If they differ in what they leave out they are the same in every respect.

The texts need not have the same arguments: a value may be a literal in the one and an argument of
the other, and what stands elsewhere has another number. What has to agree is the values that they
come to (`Statement.Inserts`).
-/

import MiniSql.Proofs.Plan.Insert
import MiniSql.Proofs.Session.Stamps
import MiniSql.Proofs.Store.Forms

namespace MiniSql

open Timed
open Grammar (Tree)
open Mutation (Rearranged)

/-! ## Values that are planned -/

section Planned

variable {α : Type} {columns columns' : List String}
  {values values' : List (List (Except Error α))} {tuples : List (List α)}

namespace Except

/-- A pass over what is put together from `p` as it is from what `p` comes to. -/
theorem mapM_map_map {β γ δ : Type} {f : β → γ} {g : δ → List α}
    {step : γ → Except Error (List α)} {plan : β → Except Error δ} {l : List β}
    (h : ∀ p ∈ l, step (f p) = g <$> plan p) :
    (l.map f).mapM step = (·.map g) <$> l.mapM plan := by
  induction l with
  | nil => rfl
  | cons p l ih =>
    obtain ⟨hp, h⟩ := List.forall_mem_cons.1 h
    rw [List.map_cons, List.mapM_cons, List.mapM_cons, hp, ih h]
    cases plan p with
    | error e => rfl
    | ok a => cases l.mapM plan <;> rfl

/-- Both parts of a tuple. -/
def both (p : List (Except Error α) × List (Except Error α)) :
    Except Error (List α × List α) := do
  return (← p.1.mapM id, ← p.2.mapM id)

/-- Two lists of results are taken one after the other. -/
theorem mapM_both (p : List (Except Error α) × List (Except Error α)) :
    (p.1 ++ p.2).mapM id = (fun q => q.1 ++ q.2) <$> both p := by
  simp [both]

/-- Two lists with a result between them are taken one after the other. -/
theorem mapM_both_with (p : List (Except Error α) × List (Except Error α)) (d : α) :
    (p.1 ++ .ok d :: p.2).mapM id = (fun q => q.1 ++ d :: q.2) <$> both p := by
  have hd {β : Type} (f : α → Except Error β) : (Except.ok d >>= f) = f d := rfl
  simp [both, hd]

end Except

/-- Tuples with the values in another order come to such tuples. -/
theorem Rearranged.planned (h : List.Forall₂ (Rearranged columns columns') values values')
    (hvalues : values.mapM (fun v => v.mapM id) = .ok tuples) :
    ∃ tuples', values'.mapM (fun v => v.mapM id) = .ok tuples' ∧
      List.Forall₂ (Rearranged columns columns') tuples tuples' := by
  rw [Except.mapM_eq_ok] at hvalues
  induction h generalizing tuples with
  | nil =>
    cases hvalues
    exact ⟨[], rfl, .nil⟩
  | cons hv _ ih =>
    cases hvalues with
    | cons htuple hvalues =>
      obtain ⟨tuple', htuple', hrearranged⟩ := hv.mapM htuple
      obtain ⟨tuples', htuples', h⟩ := ih hvalues
      refine ⟨tuple' :: tuples', ?_, .cons hrearranged h⟩
      exact Except.mapM_eq_ok.2 (.cons htuple' (Except.mapM_eq_ok.1 htuples'))

/-- Tuples in two forms are refused for the same reason, or come to tuples in two forms. -/
theorem Schema.Forms.planned {s : Schema} {d : α}
    (h : s.Forms (.ok d) columns values columns' values') :
    (∃ e, values.mapM (fun v => v.mapM id) = .error e ∧
        values'.mapM (fun v => v.mapM id) = .error e) ∨
      ∃ tuples tuples', values.mapM (fun v => v.mapM id) = .ok tuples ∧
        values'.mapM (fun v => v.mapM id) = .ok tuples' ∧
        s.Forms d columns tuples columns' tuples' := by
  -- Where the tuples are the same, so is what they come to.
  have hsame {n : Nat} {columns columns' : List String} (hwidth : ∀ v ∈ values, v.length = n)
      (h : ∀ tuples : List (List α), (∀ tuple ∈ tuples, tuple.length = n) →
        s.Forms d columns tuples columns' tuples) :
      (∃ e, values.mapM (fun v => v.mapM id) = .error e ∧
          values.mapM (fun v => v.mapM id) = .error e) ∨
        ∃ tuples tuples', values.mapM (fun v => v.mapM id) = .ok tuples ∧
          values.mapM (fun v => v.mapM id) = .ok tuples' ∧
          s.Forms d columns tuples columns' tuples' := by
    cases hvalues : values.mapM (fun v => v.mapM id) with
    | error e => exact .inl ⟨e, rfl, rfl⟩
    | ok tuples =>
      refine .inr ⟨tuples, tuples, rfl, rfl, h tuples fun tuple htuple => ?_⟩
      obtain ⟨v, hv, hplanned⟩ := exists_mem_of_forall₂ (Except.mapM_eq_ok.1 hvalues) htuple
      exact (Except.mapM_eq_ok.1 hplanned).length_eq.symm.trans (hwidth v hv)
  cases h with
  | all hwidth => exact hsame hwidth fun _ => .all
  | short hauto hwidth => exact hsame hwidth fun _ => .short hauto
  | @default before after c pairs hc hne h hwidth =>
    rw [Except.mapM_map_map fun p _ => Except.mapM_both_with p d,
      Except.mapM_map_map fun p _ => Except.mapM_both p]
    cases hpairs : pairs.mapM Except.both with
    | error e => exact .inl ⟨e, rfl, rfl⟩
    | ok planned =>
      refine .inr ⟨_, _, rfl, rfl, .default hc hne h fun q hq => ?_⟩
      obtain ⟨p, hp, hplanned⟩ := exists_mem_of_forall₂ (Except.mapM_eq_ok.1 hpairs) hq
      obtain ⟨first, hfirst, hplanned⟩ := Except.bind_eq_ok.1 hplanned
      obtain ⟨second, hsecond, hplanned⟩ := Except.bind_eq_ok.1 hplanned
      cases hplanned
      exact ⟨(hwidth p hp).1.trans (Except.mapM_eq_ok.1 hfirst).length_eq,
        (hwidth p hp).2.trans (Except.mapM_eq_ok.1 hsecond).length_eq⟩

end Planned

/-! ## Texts -/

namespace Session

variable {options : Options} {s : Session} {st st' : Statement} {name : String}
  {columns columns' : List String} {returning : Option Tree}
  {values values' : List (List (Except Error Expression))}

/-- Texts that name the columns in different orders. -/
theorem concur_forms
    (hst : st.Inserts s.database.options.strictParams name columns returning values)
    (hst' : st'.Inserts s.database.options.strictParams name columns' returning values')
    (h : List.Forall₂ (Rearranged columns columns') values values')
    (huntimed : Planning.Untimed values) : s.Concur st' st := by
  have hplan : s.plan st = _ := hst.ofText
  have hplan' : s.plan st' = _ := hst'.ofText
  cases hvalues : values.mapM (fun v => v.mapM id) with
  | error e =>
    rw [hvalues] at hplan
    cases hvalues' : values'.mapM (fun v => v.mapM id) with
    | error e' =>
      rw [hvalues'] at hplan'
      exact concur_of_faults hplan' hplan
    | ok tuples' =>
      have h' : List.Forall₂ (Rearranged columns' columns) values' values :=
        h.flip.imp fun _ _ => Rearranged.symm
      obtain ⟨tuples, htuples, -⟩ := Rearranged.planned h' hvalues'
      cases hvalues.symm.trans htuples
  | ok tuples =>
    obtain ⟨tuples', hvalues', htuples⟩ := Rearranged.planned h hvalues
    rw [hvalues] at hplan
    rw [hvalues'] at hplan'
    refine concur_of_runs hplan' hplan ?_
    cases hr : s.table? name with
    | none =>
      intro t
      exact ⟨t, .inr ⟨_, _, Plan.refuses_run rfl hr, Plan.refuses_run rfl hr⟩⟩
    | some r =>
      rw [Plan.run_insert hr, Plan.run_insert hr]
      refine Timed.Concur.bind (Mutation.concur_insert htuples fun tuple htuple e he => ?_)
        fun _ => .refl _
      obtain ⟨v, hv, hplanned⟩ := exists_mem_of_forall₂ (Except.mapM_eq_ok.1 hvalues) htuple
      rw [Except.mapM_id_eq_ok.1 hplanned] at hv
      exact huntimed _ hv e (List.mem_map_of_mem he)

/-- Texts that leave out what the other ones say. -/
theorem Reached.execute_short (hs : s.Reached options) {r : Relation} (hr : s.table? name = some r)
    (hst : st.Inserts s.database.options.strictParams name columns returning values)
    (hst' : st'.Inserts s.database.options.strictParams name columns' returning values')
    (h : r.schema.Forms (.ok .default) columns values columns' values') :
    s.execute st = s.execute st' := by
  have hplan : s.plan st = _ := hst.ofText
  have hplan' : s.plan st' = _ := hst'.ofText
  rcases h.planned with ⟨e, hvalues, hvalues'⟩ | ⟨tuples, tuples', hvalues, hvalues', h⟩ <;>
    rw [hvalues] at hplan <;> rw [hvalues'] at hplan'
  · exact execute_congr_faults hplan hplan'
  · refine execute_congr_runs hplan hplan' ?_
    have hschema := (hs.stored _ (SortedMap.mem_entries_of_get? hr)).wellTyped.schema
    rw [Plan.run_insert hr, Plan.run_insert hr,
      Mutation.insert_forms hschema.names_nodup hschema.columns_ne_nil h]

/-- **One `INSERT` in several forms.** Where the columns and their values are named in another
order, and no value reads the clock, the session that is left is the same and both have the same
answer or none. Where a column is left out and not given `DEFAULT`, or where the columns are given
by position and not named in the order of the schema, all of them or those that are not
autoincrement, the session and the answer are the same, also where it is an error. -/
theorem Reached.execute_forms (hs : s.Reached options)
    (hst : st.Inserts s.database.options.strictParams name columns returning values)
    (hst' : st'.Inserts s.database.options.strictParams name columns' returning values') :
    (List.Forall₂ (Rearranged columns columns') values values' →
        Planning.Untimed values → s.Concur st' st) ∧
      ∀ r, s.table? name = some r →
        r.schema.Forms (.ok .default) columns values columns' values' →
          s.execute st = s.execute st' :=
  ⟨concur_forms hst hst', fun _ hr h => hs.execute_short hr hst hst' h⟩

/-- A session with a table whose rows are numbered. -/
def emptyNumbered : Session :=
  ((new .standard ⟨0, []⟩).execute
    ⟨"CREATE TABLE t (id INT PRIMARY KEY AUTOINCREMENT, a INT, b TEXT DEFAULT 'x')", []⟩).2

/-- An `INSERT` that names the columns that are not autoincrement, and gives one `DEFAULT`. -/
def naming : Statement :=
  ⟨"INSERT INTO t (a, b) VALUES ($1, DEFAULT), (3, DEFAULT)", [.integer 2]⟩

/-- It names them in another order. -/
def namingBackwards : Statement :=
  ⟨"INSERT INTO t (b, a) VALUES (DEFAULT, 2), (DEFAULT, $1)", [.integer 3]⟩

/-- It leaves the column out. -/
def leavingOut : Statement := ⟨"INSERT INTO t (a) VALUES (2), (3)", []⟩

/-- It names no columns. -/
def positional : Statement :=
  ⟨"INSERT INTO t VALUES ($1, DEFAULT), ($2, DEFAULT)", [.integer 2, .integer 3]⟩

/-- The value of an integer. -/
def given (n : Int64) : Except Error Expression := .ok (.constant (.integer n))

/-- All four insert the same two rows. -/
theorem execute_forms_naming :
    (emptyNumbered.execute naming).1 = .ok (.inserted 2 (some 2)) ∧
      emptyNumbered.Concur namingBackwards naming ∧
      emptyNumbered.execute naming = emptyNumbered.execute leavingOut ∧
      emptyNumbered.execute naming = emptyNumbered.execute positional := by
  have hreached : emptyNumbered.Reached .standard := ⟨⟨0, []⟩, .execute .refl _⟩
  have hstrict : emptyNumbered.database.options.strictParams = Options.standard.strictParams :=
    congrArg Options.strictParams (options_execute _ _)
  have hcolumns : (emptyNumbered.table? "t").map (·.schema.columns) =
      some [⟨"id", .integer, false, true, true, none, false⟩, .plain "a" .integer,
        ⟨"b", .text, true, false, false, some (.value (.text "x")), false⟩] := by
    decide +kernel
  obtain ⟨r, hr, hcolumns⟩ := Option.map_eq_some_iff.1 hcolumns
  let default : Tree := .word .DEFAULT []
  have hnaming : naming.Inserts emptyNumbered.database.options.strictParams "t" ["a", "b"] none
      [[given 2, .ok .default], [given 3, .ok .default]] :=
    ⟨[[.leaf .placeholder "$1", default], [.leaf .number "3", default]], by decide +kernel,
      by rw [hstrict]; decide +kernel, rfl⟩
  have hbackwards : namingBackwards.Inserts emptyNumbered.database.options.strictParams "t"
      ["b", "a"] none [[.ok .default, given 2], [.ok .default, given 3]] :=
    ⟨[[default, .leaf .number "2"], [default, .leaf .placeholder "$1"]], by decide +kernel,
      by rw [hstrict]; decide +kernel, rfl⟩
  have hleavingOut : leavingOut.Inserts emptyNumbered.database.options.strictParams "t" ["a"] none
      [[given 2], [given 3]] :=
    ⟨[[.leaf .number "2"], [.leaf .number "3"]], by decide +kernel,
      by rw [hstrict]; decide +kernel, rfl⟩
  have hpositional : positional.Inserts emptyNumbered.database.options.strictParams "t" [] none
      [[given 2, .ok .default], [given 3, .ok .default]] :=
    ⟨[[.leaf .placeholder "$1", default], [.leaf .placeholder "$2", default]], by decide +kernel,
      by rw [hstrict]; decide +kernel, rfl⟩
  have huntimed : Planning.Untimed [[given 2, .ok .default], [given 3, .ok .default]] :=
    Planning.untimed_map.2 (by decide : ∀ tuple ∈ [[Expression.constant (.integer 2), .default],
      [.constant (.integer 3), .default]], ∀ e ∈ tuple, e.readsClock = false)
  refine ⟨by decide +kernel, (hreached.execute_forms hnaming hbackwards).1 ?_ huntimed,
    (hreached.execute_forms hnaming hleavingOut).2 r hr ?_,
    (hreached.execute_forms hnaming hpositional).2 r hr ?_⟩
  · exact .cons ⟨rfl, rfl, .swap _ _ _⟩ (.cons ⟨rfl, rfl, .swap _ _ _⟩ .nil)
  · show r.schema.Forms _ (["a"] ++ "b" :: [])
      (List.map (fun p => p.1 ++ .ok .default :: p.2) [([given 2], []), ([given 3], [])])
      (["a"] ++ []) (List.map (fun p => p.1 ++ p.2) [([given 2], []), ([given 3], [])])
    refine .default (c := ⟨"b", .text, true, false, false, some (.value (.text "x")), false⟩)
      ?_ (List.cons_ne_nil _ _) (by decide) (by simp)
    rw [hcolumns]
    decide
  · have hforms : r.schema.Forms (.ok .default) _ [[given 2, .ok .default],
        [given 3, .ok .default]] _ _ := .short (by rw [hcolumns]; decide)
      (by rw [hcolumns]; exact List.forall_mem_cons.2 ⟨rfl, List.forall_mem_singleton.2 rfl⟩)
    rw [hcolumns] at hforms
    exact hforms

end Session
end MiniSql
