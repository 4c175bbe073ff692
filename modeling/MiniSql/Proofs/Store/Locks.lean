/-
# What locks cover

A plan asks for its locks before it runs, from what its statement says and not from what it will
do. The two agree: a query that is granted its locks can read every table that it scans
(`Query.readable`), and a table that a statement changes is never locked for reading only
(`Catalog.tableToWrite_of_grant`).

A request is built by one call for each table that is named, and it does not matter in which order
the calls are made or how often: a table is locked for writing if it is asked for so at least once
(`LockRequest.get?_ofCalls`). A request is refused for the first name in order that has no table
(`Catalog.grant_eq_error_iff`).
-/

import MiniSql.Plan
import MiniSql.Proofs.Internal
import MiniSql.Proofs.Text.Bytes
import Mathlib.Data.List.Sort

namespace MiniSql

variable {c : Catalog} {name table : String}

/-- Maps that answer alike are the same. -/
theorem SortedMap.ext_get? {α : Type} {m n : SortedMap String α} (h : ∀ k, m.get? k = n.get? k) :
    m = n := by
  have hirrefl : Std.Irrefl fun a b : String × α => a.1 < b.1 := ⟨fun a => String.lt_irrefl a.1⟩
  have hantisymm : Std.Antisymm fun a b : String × α => a.1 < b.1 :=
    ⟨fun a b h h' => absurd h' (String.lt_asymm h)⟩
  refine SortedMap.ext (m.sorted.eq_of_mem_iff n.sorted fun e => ?_)
  rw [mem_entries_iff, mem_entries_iff, h]

/-- A name is a key if something is found under it. -/
theorem SortedMap.mem_keys_iff {α : Type} {m : SortedMap String α} {k : String} :
    k ∈ m.keys ↔ (m.get? k).isSome := by
  have hirrefl : Std.Irrefl (α := String) (· < ·) := ⟨String.lt_irrefl⟩
  rw [Option.isSome_iff_exists, keys, List.mem_map]
  constructor
  · rintro ⟨⟨_, a⟩, he, rfl⟩
    exact ⟨a, mem_entries_iff.1 he⟩
  · rintro ⟨a, ha⟩
    exact ⟨(k, a), mem_entries_of_get? ha, rfl⟩

/-- No key is there twice. -/
theorem SortedMap.nodup_keys {α : Type} (m : SortedMap String α) : m.keys.Nodup :=
  (List.pairwise_map.2 m.sorted).imp fun h => fun heq => String.lt_irrefl _ (heq ▸ h)

namespace LockRequest

/-- To ask for reading adds the one table. -/
theorem isSome_get?_read {q : LockRequest} :
    ((q.read table).get? name).isSome ↔ table = name ∨ (q.get? name).isSome := by
  unfold read
  split
  · rename_i h
    constructor
    · exact .inr
    · rintro (rfl | h')
      · exact h
      · exact h'
  · rw [SortedMap.get?_insert]
    split <;> simp [*]

/-- To ask for reading several adds each of them. -/
theorem isSome_get?_readAll {q : LockRequest} {names : List String} :
    ((names.foldl read q).get? name).isSome ↔ name ∈ names ∨ (q.get? name).isSome := by
  induction names generalizing q with
  | nil => simp
  | cons table names ih => rw [List.foldl_cons, ih, isSome_get?_read, List.mem_cons, or_left_comm,
      or_assoc, eq_comm]

/-- A table that was asked for writing stays so. -/
theorem get?_write {q : LockRequest} : (q.write table).get? table = some .write := by
  rw [write, SortedMap.get?_insert, if_pos rfl]

/-! ## Requests call by call -/

/-- The request with a table asked for in a mode. -/
def ask (q : LockRequest) (call : LockMode × String) : LockRequest :=
  match call.1 with
  | .read => q.read call.2
  | .write => q.write call.2

/-- The request that some calls build, one after the other. -/
def ofCalls (calls : List (LockMode × String)) : LockRequest := calls.foldl ask .empty

/-- A call for reading keeps the mode that a table has. -/
theorem get?_read (q : LockRequest) :
    (q.read table).get? name =
      if table = name then some ((q.get? name).getD .read) else q.get? name := by
  by_cases h : table = name
  · subst h
    rw [if_pos rfl, read, SortedMap.contains]
    cases hq : q.get? table with
    | none => rw [if_neg (by simp), SortedMap.get?_insert, if_pos rfl, Option.getD_none]
    | some mode => rw [if_pos (by simp), hq, Option.getD_some]
  · rw [if_neg h, read]
    split
    · rfl
    · rw [SortedMap.get?_insert, if_neg h]

/-- What some calls make of a request: a table that is written once is locked for writing, and a
table that is only read keeps the mode that it had. -/
theorem get?_foldl_ask (calls : List (LockMode × String)) (q : LockRequest) :
    (calls.foldl ask q).get? name =
      if (.write, name) ∈ calls then some .write
      else if (.read, name) ∈ calls then some ((q.get? name).getD .read)
      else q.get? name := by
  induction calls generalizing q with
  | nil => simp
  | cons call calls ih =>
    obtain ⟨mode, table⟩ := call
    rw [List.foldl_cons, ih]
    cases mode with
    | read =>
      have hask : (ask q (.read, table)).get? name = _ := get?_read q
      rw [hask]
      by_cases h : table = name
      · subst h
        simp
      · simp [h, Ne.symm h]
    | write =>
      have hask : (ask q (.write, table)).get? name = _ := SortedMap.get?_insert q table name .write
      rw [hask]
      by_cases h : table = name
      · subst h
        simp
      · simp [h, Ne.symm h]

/-- **A table is locked in the stronger mode that it is asked for in**, whatever the order of the
calls. -/
theorem get?_ofCalls (calls : List (LockMode × String)) :
    (ofCalls calls).get? name =
      if (.write, name) ∈ calls then some .write
      else if (.read, name) ∈ calls then some .read
      else none := by
  rw [ofCalls, get?_foldl_ask, SortedMap.get?_empty, Option.getD_none]

/-- The same calls build the same request, in any order and any number. -/
theorem ofCalls_congr {calls calls' : List (LockMode × String)}
    (h : ∀ call, call ∈ calls ↔ call ∈ calls') : ofCalls calls = ofCalls calls' := by
  refine SortedMap.ext_get? fun name => ?_
  rw [get?_ofCalls, get?_ofCalls]
  simp only [h]

end LockRequest

namespace Catalog

/-- A request that is granted names tables that are there. -/
theorem has_of_grant {q : LockRequest} (h : c.grant q = .ok ()) (hname : (q.get? name).isSome) :
    c.has name = true := by
  unfold grant at h
  split at h
  · rename_i hnone
    obtain ⟨mode, hmode⟩ := Option.isSome_iff_exists.1 hname
    have hkey : name ∈ q.keys := List.mem_map.2 ⟨_, SortedMap.mem_entries_of_get? hmode, rfl⟩
    simpa using List.find?_eq_none.1 hnone name hkey
  · cases h

/-- Where a lock is granted a table is given. -/
theorem table_of_grant {q : LockRequest} (h : c.grant q = .ok ()) (hname : (q.get? name).isSome) :
    ∃ r, c.tables.get? name = some r ∧ c.table q name = .ok r := by
  obtain ⟨r, hr⟩ := Option.isSome_iff_exists.1 (has_of_grant h hname)
  obtain ⟨mode, hmode⟩ := Option.isSome_iff_exists.1 hname
  exact ⟨r, hr, by rw [table, hmode, hr]⟩

/-- A table that is read under a lock is the one in the catalog. -/
theorem get?_of_table {q : LockRequest} {r : Relation} (h : c.table q name = .ok r) :
    c.tables.get? name = some r := by
  unfold table at h
  split at h
  · cases h
    assumption
  · cases h

/-- **The table that a statement changes** is there, and locked for writing. -/
theorem tableToWrite_of_grant (h : c.grant (LockRequest.write .empty name) = .ok ()) :
    ∃ r, c.tables.get? name = some r ∧
      c.tableToWrite (LockRequest.write .empty name) name = .ok r := by
  have hlocked : ((LockRequest.write .empty name).get? name).isSome := by
    rw [LockRequest.get?_write]
    rfl
  obtain ⟨r, hget, hr⟩ := table_of_grant h hlocked
  refine ⟨r, hget, ?_⟩
  rw [tableToWrite, LockRequest.get?_write]
  exact hr

/-- The first of some names, in the order of their bytes, that has no table. -/
structure FirstMissing (c : Catalog) (names : String → Prop) (name : String) : Prop where
  named : names name
  missing : c.has name = false
  first : ∀ other, names other → c.has other = false → other = name ∨ bytesOf name < bytesOf other

/-- There is only one first missing table. -/
theorem FirstMissing.unique {names : String → Prop} {other : String}
    (h : c.FirstMissing names name) (h' : c.FirstMissing names other) : name = other := by
  rcases h.first other h'.named h'.missing with heq | hlt
  · exact heq.symm
  rcases h'.first name h.named h.missing with heq | hlt'
  · exact heq
  exact absurd hlt' (String.lt_asymm (lt_iff_bytes_lt.2 hlt) ∘ lt_iff_bytes_lt.2)

/-- **A request is refused for the first name that has no table**, and for nothing else. -/
theorem grant_eq_error_iff {q : LockRequest} {e : Error} :
    c.grant q = .error e ↔
      ∃ name, c.FirstMissing (fun name => name ∈ q.keys) name ∧ e = .schema (.noTable name) := by
  have hfound {name : String} (h : (q.keys.find? fun name => !c.has name) = some name) :
      c.FirstMissing (fun name => name ∈ q.keys) name := by
    obtain ⟨hmissing, before, behind, hkeys, hthere⟩ := List.find?_eq_some_iff_append.1 h
    have hsorted : (before ++ name :: behind).Pairwise (· < ·) :=
      hkeys ▸ List.pairwise_map.2 q.sorted
    refine ⟨List.mem_of_find?_eq_some h, by simpa using hmissing, fun other hother hnone => ?_⟩
    rw [hkeys] at hother
    rcases List.mem_append.1 hother with hother | hother
    · have := hthere other hother
      simp [hnone] at this
    · rcases List.mem_cons.1 hother with rfl | hother
      · exact .inl rfl
      · have hlt := List.rel_of_pairwise_cons (List.pairwise_append.1 hsorted).2.1 hother
        exact .inr (lt_iff_bytes_lt.1 hlt)
  unfold grant
  split
  · rename_i hnone
    constructor
    · intro h
      cases h
    · rintro ⟨name, h, -⟩
      have := List.find?_eq_none.1 hnone name h.named
      rw [h.missing] at this
      exact absurd rfl this
  · rename_i name h
    constructor
    · rintro ⟨⟩
      exact ⟨name, hfound h, rfl⟩
    · rintro ⟨other, hother, rfl⟩
      rw [(hfound h).unique hother]

/-- Granting locks never fails internally. -/
theorem grant_neverInternal (q : LockRequest) : Except.NeverInternal (c.grant q) := by
  unfold grant
  split
  · exact .ok ()
  · exact .schema _

end Catalog

/-- **The tables that a query scans** are those that it locks. -/
theorem Query.readable {q : Query} (h : c.grant (Plan.query q).locks = .ok ()) :
    ∀ name ∈ q.tables, ∃ r, c.table (Plan.query q).locks name = .ok r := by
  intro name hname
  obtain ⟨r, -, hr⟩ := Catalog.table_of_grant h (LockRequest.isSome_get?_readAll.2 (.inl hname))
  exact ⟨r, hr⟩

end MiniSql
