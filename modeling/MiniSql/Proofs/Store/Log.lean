/-
# A relation is an append-only list

`Log` is a list of rows with their ids, to which rows are only added at its end. Calls on a relation
do to a pass over its rows what they do to such a list (`Log.Does`), also one after the other:

| call | the list after it |
| --- | --- |
| insert | the new rows at the end, under the next ids |
| update | each row listed stands in the place of the old one |
| delete | the rows of other ids, and the answer counts the rest |
| truncate | no rows, and the answer counts them |
| refused | the same list |

The rows of the list are the rows as they are kept. They are the rows themselves where all that the
calls hand over is decoded from its own bytes (`Log.DoesAll.of_roundTrips`).

The order is not stored. It is that of the keys, so the list is also what a map of byte strings
gives that is written row by row (`Relation.performAll_refines`).
-/

import MiniSql.Proofs.Store.KeyedRows
import MiniSql.Proofs.Store.RoundTrips

namespace MiniSql

open Timed

/-! ## Calls -/

namespace Relation

/-- What a relation is asked to do. -/
inductive Call where
  | insert (slots : List (List (Option Value)))
  | update (changes : List (Nat × Row))
  | delete (ids : List Nat)
  | truncate

/-- What it answers. -/
inductive Reply where
  | inserted (stored : Inserted)
  | updated (count : Nat)
  | deleted (count : Nat)
  | truncated (count : Nat)
  | refused (e : Error)

/-- An update lists no id twice, and what is deleted are numbers of 64 bits. -/
def Call.Proper : Call → Prop
  | insert _ => True
  | update changes => (changes.map (·.1)).Nodup
  | delete ids => ∀ id ∈ ids, id < RowKey.limit
  | truncate => True

/-- What the call hands over is decoded from its own bytes. -/
def Call.RoundTrips : Call → Prop
  | insert slots => ∀ row ∈ slots, SlotsRoundTrip row
  | update changes => ∀ e ∈ changes, Record.RoundTrips e.2
  | delete _ => True
  | truncate => True

/-- The relation after a call, and the answer. -/
def perform (r : Relation) : Call → StateM Time.Clock (Relation × Reply)
  | .insert slots => do
    match ← (r.insert slots).run with
    | .ok (r', stored) => return (r', .inserted stored)
    | .error e => return (r, .refused e)
  | .update changes => do
    match ← (r.update changes).run with
    | .ok (r', n) => return (r', .updated n)
    | .error e => return (r, .refused e)
  | .delete ids => return ((r.delete ids).1, .deleted (r.delete ids).2)
  | .truncate => return (r.truncate.1, .truncated r.truncate.2)

/-- Performs some calls in turn, whether or not they are refused. -/
def performAll (r : Relation) : List Call → StateM Time.Clock (Relation × List Reply)
  | [] => return (r, [])
  | call :: calls => do
    let (r, reply) ← r.perform call
    let (r, replies) ← r.performAll calls
    return (r, reply :: replies)

/-- Calls have led to the relation from one without rows. -/
def Arises (r : Relation) : Prop :=
  ∃ schema start calls t, (((new schema start).performAll calls).run t).1.1 = r

end Relation

/-! ## The list -/

/-- Rows with their ids, and the first id that has not been used. -/
structure Log where
  entries : List (Nat × Row)
  next : Nat

namespace Log

open MiniSql.Relation (Call Reply)

/-- Rows under the next ids. -/
def numbered (l : Log) (rows : List Row) : List (Nat × Row) := (rows.zipIdx l.next).map Prod.swap

/-- The list with rows at its end. -/
def append (l : Log) (rows : List Row) : Log :=
  ⟨l.entries ++ l.numbered rows, l.next + rows.length⟩

/-- The list with other rows in the places of their ids. -/
def replace (l : Log) (stored : List (Nat × Row)) : Log :=
  { l with entries := l.entries.map fun e => (e.1, (stored.lookup e.1).getD e.2) }

/-- The list without the rows of some ids. -/
def remove (l : Log) (ids : List Nat) : Log :=
  { l with entries := l.entries.filter fun e => e.1 ∉ ids }

/-- The list without rows. -/
def clear (l : Log) : Log := { l with entries := [] }

/-- The row is what the slots are completed to at some time. -/
def Completes (s : Schema) (slots : List (Option Value)) (row : Row) : Prop :=
  ∃ n t n' t', Gives (Relation.completeRow s slots n) t (row, n') t'

/-- The row is stored for the one given: under its id, as the columns hold it, and stamped at some
time. -/
def StoredFor (s : Schema) (given stored : Nat × Row) : Prop :=
  stored.1 = given.1 ∧ ∃ prepared t t', Relation.prepare s given.2 = .ok prepared ∧
    Gives (Relation.stamp s.columns prepared) t stored.2 t'

/-- The writes of the records of rows under their ids. -/
def written (entries : List (Nat × Row)) : List RowWrite :=
  entries.map fun e => .set e.1 (.encode e.2)

/-- What a call with this answer does to the list, where `keep` says what becomes of a row that is
stored, and the writes to the rows that it takes. -/
inductive Does (keep : Row → Row) (s : Schema) (l : Log) :
    Call → Reply → List RowWrite → Log → Prop
  | insert {slots stored} (h : List.Forall₂ (Completes s) slots stored.rows) :
      Does keep s l (.insert slots) (.inserted stored) (written (l.numbered stored.rows))
        (l.append (stored.rows.map keep))
  | update {changes stored} (h : List.Forall₂ (StoredFor s) changes stored)
      (hids : ∀ e ∈ stored, e.1 ∈ l.entries.map (·.1)) :
      Does keep s l (.update changes) (.updated changes.length) (written stored)
        (l.replace (stored.map fun e => (e.1, keep e.2)))
  | delete {ids} : Does keep s l (.delete ids)
      (.deleted (l.entries.countP fun e => e.1 ∈ ids)) (ids.map .remove) (l.remove ids)
  | truncate : Does keep s l .truncate (.truncated l.entries.length) [.clear] l.clear
  | insertRefused {slots e} : Does keep s l (.insert slots) (.refused e) [] l
  | updateRefused {changes e} : Does keep s l (.update changes) (.refused e) [] l

/-- The same for calls in turn. -/
inductive DoesAll (keep : Row → Row) (s : Schema) :
    Log → List Call → List Reply → List RowWrite → Log → Prop
  | nil (l : Log) : DoesAll keep s l [] [] [] l
  | cons {l mid l' call calls reply replies writes writes'}
      (h : Does keep s l call reply writes mid) (hs : DoesAll keep s mid calls replies writes' l') :
      DoesAll keep s l (call :: calls) (reply :: replies) (writes ++ writes') l'

/-- Ids ascend, below the next one. -/
structure Ascends (l : Log) : Prop where
  sorted : (l.entries.map (·.1)).Pairwise (· < ·)
  below : ∀ e ∈ l.entries, e.1 < l.next

/-- The second list goes on from the first: an id that the first has used is in the second only if
it still is in the first. -/
structure GoesOn (l l' : Log) : Prop where
  next : l.next ≤ l'.next
  old : ∀ e ∈ l'.entries, e.1 < l.next → e.1 ∈ l.entries.map (·.1)

variable {keep : Row → Row} {s : Schema} {l mid l' : Log} {call : Call} {reply : Reply}
  {calls : List Call} {replies : List Reply} {writes : List RowWrite}

/-! ### What a call keeps of the list -/

/-- New rows are numbered from the next number, one after the other. -/
theorem mem_numbered {rows : List Row} {e : Nat × Row} (h : e ∈ l.numbered rows) :
    l.next ≤ e.1 ∧ e.1 < l.next + rows.length := by
  obtain ⟨⟨row, k⟩, hk, rfl⟩ := List.mem_map.1 h
  exact ⟨List.le_snd_of_mem_zipIdx hk, List.snd_lt_add_of_mem_zipIdx hk⟩

/-- The numbers of new rows follow each other. -/
theorem ids_numbered (rows : List Row) :
    (l.numbered rows).map (·.1) = List.range' l.next rows.length := by
  rw [numbered, List.map_map]
  exact List.zipIdx_map_snd l.next rows

/-- Replacing rows changes no number. -/
theorem ids_replace (l : Log) (stored : List (Nat × Row)) :
    (l.replace stored).entries.map (·.1) = l.entries.map (·.1) := by
  rw [replace, List.map_map]
  rfl

/-- The numbers still ascend when rows are appended. -/
theorem Ascends.append (h : l.Ascends) (rows : List Row) : (l.append rows).Ascends := by
  refine ⟨?_, fun e he => ?_⟩
  · show ((l.entries ++ l.numbered rows).map (·.1)).Pairwise (· < ·)
    rw [List.map_append, List.pairwise_append]
    refine ⟨h.sorted, ids_numbered rows ▸ List.pairwise_lt_range', fun a ha b hb => ?_⟩
    obtain ⟨d, hd, rfl⟩ := List.mem_map.1 ha
    obtain ⟨e, he, rfl⟩ := List.mem_map.1 hb
    exact Nat.lt_of_lt_of_le (h.below d hd) (mem_numbered he).1
  · show e.1 < l.next + rows.length
    rcases List.mem_append.1 he with he | he
    · exact Nat.lt_of_lt_of_le (h.below e he) (Nat.le_add_right _ _)
    · exact (mem_numbered he).2

/-- The numbers still ascend when rows are replaced. -/
theorem Ascends.replace (h : l.Ascends) (stored : List (Nat × Row)) :
    (l.replace stored).Ascends := by
  refine ⟨ids_replace l stored ▸ h.sorted, fun e he => ?_⟩
  obtain ⟨d, hd, rfl⟩ := List.mem_map.1 he
  exact h.below d hd

/-- The numbers still ascend when rows are removed. -/
theorem Ascends.remove (h : l.Ascends) (ids : List Nat) : (l.remove ids).Ascends :=
  ⟨h.sorted.sublist (List.filter_sublist.map _),
    fun e he => h.below e (List.mem_filter.1 he).1⟩

/-- Without rows the numbers ascend. -/
theorem ascends_clear (l : Log) : l.clear.Ascends := ⟨.nil, fun _ he => nomatch he⟩

/-- **No call breaks the order** of the ids. -/
theorem Does.ascends (h : Does keep s l call reply writes l') (hl : l.Ascends) : l'.Ascends := by
  cases h with
  | insert _ => exact hl.append _
  | update _ _ => exact hl.replace _
  | delete => exact hl.remove _
  | truncate => exact ascends_clear _
  | insertRefused => exact hl
  | updateRefused => exact hl

/-- **No call brings an id back.** -/
theorem Does.goesOn (h : Does keep s l call reply writes l') : l.GoesOn l' := by
  have hself : l.GoesOn l := ⟨Nat.le_refl _, fun e he _ => List.mem_map_of_mem he⟩
  cases h with
  | @insert slots stored _ =>
    refine ⟨Nat.le_add_right _ _, fun e he hold => ?_⟩
    rcases List.mem_append.1 he with he | he
    · exact List.mem_map_of_mem he
    · have hnew := (mem_numbered he).1
      omega
  | update _ _ =>
    refine ⟨Nat.le_refl _, fun e he _ => ?_⟩
    rw [← ids_replace]
    exact List.mem_map_of_mem he
  | delete =>
    exact ⟨Nat.le_refl _, fun e he _ => List.mem_map_of_mem (List.mem_filter.1 he).1⟩
  | truncate => exact ⟨Nat.le_refl _, fun _ he => nomatch he⟩
  | insertRefused => exact hself
  | updateRefused => exact hself

/-- What is written has a key, as long as the list has not run out of them. -/
theorem Does.hasKey (h : Does keep s l call reply writes l') (hl : l.Ascends) (hcall : call.Proper)
    (hnext : l'.next ≤ RowKey.limit) : ∀ w ∈ writes, w.HasKey := by
  cases h with
  | @insert slots stored _ =>
    intro w hw
    obtain ⟨e, he, rfl⟩ := List.mem_map.1 hw
    have hlt := (mem_numbered he).2
    rw [← List.length_map keep] at hlt
    exact Nat.lt_of_lt_of_le hlt hnext
  | @update changes stored _ hids =>
    intro w hw
    obtain ⟨e, he, rfl⟩ := List.mem_map.1 hw
    obtain ⟨d, hd, hid⟩ := List.mem_map.1 (hids e he)
    exact hid ▸ Nat.lt_of_lt_of_le (hl.below d hd) hnext
  | @delete ids =>
    intro w hw
    obtain ⟨id, hid, rfl⟩ := List.mem_map.1 hw
    exact hcall id hid
  | truncate => exact List.forall_mem_singleton.2 trivial
  | insertRefused => exact fun _ hw => nomatch hw
  | updateRefused => exact fun _ hw => nomatch hw

/-! ### What calls in turn keep of it -/

/-- Going on twice is going on. -/
theorem GoesOn.trans (h : l.GoesOn mid) (h' : mid.GoesOn l') : l.GoesOn l' := by
  refine ⟨Nat.le_trans h.next h'.next, fun e he hold => ?_⟩
  obtain ⟨d, hd, hid⟩ := List.mem_map.1 (h'.old e he (Nat.lt_of_lt_of_le hold h.next))
  exact hid ▸ h.old d hd (hid ▸ hold)

/-- Calls keep the numbers ascending. -/
theorem DoesAll.ascends (h : DoesAll keep s l calls replies writes l') (hl : l.Ascends) :
    l'.Ascends := by
  induction h with
  | nil => exact hl
  | cons h _ ih => exact ih (h.ascends hl)

/-- Calls only let the numbers go on. -/
theorem DoesAll.goesOn (h : DoesAll keep s l calls replies writes l') : l.GoesOn l' := by
  induction h with
  | nil l => exact ⟨Nat.le_refl _, fun e he _ => List.mem_map_of_mem he⟩
  | cons h _ ih => exact h.goesOn.trans ih

/-- Each write of the calls has a key, while numbers are left. -/
theorem DoesAll.hasKey (h : DoesAll keep s l calls replies writes l') (hl : l.Ascends)
    (hcalls : ∀ call ∈ calls, call.Proper) (hnext : l'.next ≤ RowKey.limit) :
    ∀ w ∈ writes, w.HasKey := by
  induction h with
  | nil => exact fun _ hw => nomatch hw
  | cons h hs ih =>
    obtain ⟨hcall, hcalls⟩ := List.forall_mem_cons.1 hcalls
    intro w hw
    rcases List.mem_append.1 hw with hw | hw
    · exact h.hasKey hl hcall (Nat.le_trans hs.goesOn.next hnext) w hw
    · exact ih (h.ascends hl) hcalls hnext w hw

/-! ### Rows that are kept as they are -/

/-- **What is handed over round trips,** so the list has the rows themselves. -/
theorem Does.of_roundTrips (h : Does Record.kept s l call reply writes l') (hs : s.RoundTrips)
    (hcall : call.RoundTrips) : Does id s l call reply writes l' := by
  cases h with
  | @insert slots stored h =>
    have hrows : stored.rows.map Record.kept = stored.rows.map id := by
      refine List.map_congr_left fun row hrow => ?_
      obtain ⟨slot, hslot, _, _, _, _, hcompleted⟩ := exists_mem_of_forall₂ h hrow
      exact Relation.completeRow_roundTrips hs (hcall slot hslot) hcompleted
    rw [hrows]
    exact .insert h
  | @update changes stored h hids =>
    have hrows : stored.map (fun e => (e.1, Record.kept e.2)) =
        stored.map fun e => (e.1, id e.2) := by
      refine List.map_congr_left fun d hd => ?_
      obtain ⟨e, he, -, prepared, _, _, hprepared, hstamped⟩ := exists_mem_of_forall₂ h hd
      have hkept : Record.kept d.2 = d.2 :=
        Relation.stamp_roundTrips (Relation.prepare_roundTrips (hcall e he) hprepared) hstamped
      rw [hkept, id]
    rw [hrows]
    exact .update h hids
  | delete => exact .delete
  | truncate => exact .truncate
  | insertRefused => exact .insertRefused
  | updateRefused => exact .updateRefused

/-- Where every row given in is kept as it is, the log holds the very rows. -/
theorem DoesAll.of_roundTrips (h : DoesAll Record.kept s l calls replies writes l')
    (hs : s.RoundTrips) (hcalls : ∀ call ∈ calls, call.RoundTrips) :
    DoesAll id s l calls replies writes l' := by
  induction h with
  | nil l => exact .nil l
  | cons h _ ih =>
    obtain ⟨hcall, hcalls⟩ := List.forall_mem_cons.1 hcalls
    exact .cons (h.of_roundTrips hs hcall) (ih hcalls)

end Log

/-! ## Relations -/

namespace Relation

variable {r r' : Relation} {call : Call} {calls : List Call} {reply : Reply} {replies : List Reply}
  {t t' : Time.Clock} {ids : List Nat}

/-- The rows as a pass meets them. -/
def log (r : Relation) : Log := ⟨r.scan, r.nextId⟩

/-- A relation counts the rows that a pass meets. -/
theorem size_eq (r : Relation) : r.size = r.scan.length := (List.length_map _).symm

/-- The last of the changed rows of an id is the only one, where no id is changed twice. -/
theorem replaced_eq_lookup {stored : List (Nat × Row)} (h : (stored.map (·.1)).Nodup)
    (e : Nat × Row) : replaced stored e = (e.1, (stored.lookup e.1).getD e.2) := by
  induction stored generalizing e with
  | nil => rfl
  | cons d stored ih =>
    obtain ⟨hd, h⟩ := List.nodup_cons.1 h
    show replaced stored (if e.1 = d.1 then d else e) = _
    by_cases hid : e.1 = d.1
    · have hkept : replaced stored d = d := by
        rcases replaced_cases stored d with hmem | ⟨hkept, -⟩
        · have hid' := List.mem_map_of_mem (f := Prod.fst) hmem
          rw [fst_replaced] at hid'
          exact absurd hid' hd
        · exact hkept
      rw [if_pos hid, hkept, List.lookup_cons, hid, beq_self_eq_true]
      rfl
    · rw [if_neg hid, ih h, List.lookup_cons, beq_false_of_ne hid]

/-- Rows that are put in their places replace those of the list. -/
theorem log_putAll {stored : List (Nat × Row)} (hids : (stored.map (·.1)).Nodup)
    (hstored : ∀ d ∈ stored, d.1 ∈ r.scan.map (·.1)) :
    (stored.foldl put r).log = r.log.replace (stored.map keptAt) := by
  rw [log, scan_putAll fun d hd => contains_iff.2 (hstored d hd), counters_putAll.1]
  refine congrArg (Log.mk · r.nextId) (List.map_congr_left fun e _ => ?_)
  exact replaced_eq_lookup (map_fst_keptAt stored ▸ hids) e

/-- Erasing takes one row away. -/
theorem length_erase {id : Nat} (h : r.rows.contains id = true) :
    ({ r with rows := r.rows.erase id } : Relation).scan.length + 1 = r.scan.length := by
  have hid : id ∈ r.scan.map (·.1) := contains_iff.1 h
  have hids : ({ r with rows := r.rows.erase id } : Relation).scan.map (·.1) =
      (r.scan.map (·.1)).erase id := by
    rw [nodup_ids.erase_eq_filter, scan, SortedMap.map_erase, SortedMap.erase, List.filter_map]
    refine congrArg _ (List.filter_congr fun e _ => ?_)
    by_cases hid : e.1 = id <;> simp [hid]
  have hlength := congrArg List.length hids
  rw [List.length_erase_of_mem hid, List.length_map, List.length_map] at hlength
  have hpos := List.length_pos_of_mem hid
  rw [List.length_map] at hpos
  omega

/-- A delete counts the rows that it takes away. -/
theorem snd_delete_eq (r : Relation) (ids : List Nat) :
    (r.delete ids).2 = r.scan.countP fun e => e.1 ∈ ids := by
  have htotal : (r.delete ids).2 + (r.delete ids).1.scan.length = r.scan.length := by
    induction ids generalizing r with
    | nil => exact Nat.zero_add _
    | cons id ids ih =>
      unfold delete
      split
      · rename_i hid
        have hrest := ih { r with rows := r.rows.erase id }
        rw [← length_erase hid]
        show (Relation.delete _ ids).2 + 1 + (Relation.delete _ ids).1.scan.length = _
        rw [Nat.add_right_comm, hrest]
      · exact ih r
  have hsplit := List.length_eq_countP_add_countP (fun e : Nat × Row => decide (e.1 ∈ ids))
    (l := r.scan)
  rw [scan_delete, ← List.countP_eq_length_filter] at htotal
  simp only [decide_eq_true_eq, decide_not] at hsplit htotal
  omega

/-- Rows that are pushed are written under their numbers. -/
theorem rows_pushAll (r : Relation) (rows : List Row) : (rows.foldl push r).rows =
    (Log.written (r.log.numbered rows)).foldl RowWrite.apply r.rows := by
  induction rows generalizing r with
  | nil => rfl
  | cons row rows ih => exact ih (r.push row)

/-- An insert writes its rows under the next ids. -/
theorem insert_does {slots : List (List (Option Value))} {stored : Inserted} (hr : r.log.Ascends)
    (h : Gives (r.insert slots) t (r', stored) t') :
    ∃ writes, Log.Does Record.kept r.schema r.log (.insert slots) (.inserted stored) writes r'.log ∧
      r'.rows = writes.foldl RowWrite.apply r.rows := by
  obtain ⟨rows, n, hrows, -, rfl, rfl⟩ := gives_insert.1 h
  have hlog : log { rows.foldl push r with nextNumber := n.next } =
      r.log.append (rows.map Record.kept) := by
    show Log.mk (rows.foldl push r).scan (rows.foldl push r).nextId = _
    rw [scan_pushAll hr.below, nextId_pushAll, Log.append, List.length_map]
    rfl
  refine ⟨_, ?_, rows_pushAll r rows⟩
  rw [hlog]
  exact .insert ((completeRows_each hrows).imp fun _ _ ⟨n, s, n', s', h⟩ => ⟨n, s, n', s', h⟩)

/-- Rows that are put are written over those of their numbers. -/
theorem rows_putAll (r : Relation) (changed : List (Nat × Row)) : (changed.foldl put r).rows =
    (Log.written changed).foldl RowWrite.apply r.rows := by
  induction changed generalizing r with
  | nil => rfl
  | cons e changed ih => exact ih (r.put e)

/-- An update writes its rows under the ids that they are listed with. -/
theorem update_does {changes : List (Nat × Row)} {n : Nat} (hchanges : (changes.map (·.1)).Nodup)
    (h : Gives (r.update changes) t (r', n) t') :
    ∃ writes, Log.Does Record.kept r.schema r.log (.update changes) (.updated n) writes r'.log ∧
      r'.rows = writes.foldl RowWrite.apply r.rows := by
  obtain ⟨stored, hstored, -, rfl, rfl⟩ := gives_update.1 h
  have hids : (stored.map (·.1)).Nodup := (scan_update hstored).2 ▸ hchanges
  have hfor : List.Forall₂ (Log.StoredFor r.schema) changes stored := by
    refine hstored.mapM.imp fun e d ⟨s, s', hchange⟩ => ?_
    obtain ⟨-, prepared, stamped, hprepared, hstamped, rfl⟩ := gives_change.1 hchange
    exact ⟨rfl, prepared, s, s', hprepared, hstamped⟩
  have hknown : ∀ d ∈ stored, d.1 ∈ r.log.entries.map (·.1) := by
    intro d hd
    obtain ⟨e, -, _, _, hchange⟩ := exists_mem_of_forall₂ hstored.mapM hd
    obtain ⟨hid, _, _, -, -, rfl⟩ := gives_change.1 hchange
    exact contains_iff.1 hid
  refine ⟨Log.written stored, ?_, rows_putAll r stored⟩
  rw [log_putAll hids hknown, ← hfor.length_eq]
  exact .update hfor hknown

/-- Rows that are deleted are removed, one by one. -/
theorem rows_delete (r : Relation) (ids : List Nat) :
    (r.delete ids).1.rows = (ids.map .remove).foldl RowWrite.apply r.rows := by
  induction ids generalizing r with
  | nil => rfl
  | cons id ids ih =>
    unfold delete
    split
    · exact ih { r with rows := r.rows.erase id }
    · rename_i hid
      -- Nothing is erased where there is no row.
      have hsame : r.rows.erase id = r.rows := by
        refine SortedMap.ext (List.filter_eq_self.2 fun e he => decide_eq_true ?_)
        rintro rfl
        exact hid (SortedMap.contains_of_mem he)
      rw [ih, List.map_cons, List.foldl_cons]
      show _ = (ids.map RowWrite.remove).foldl RowWrite.apply (r.rows.erase id)
      rw [hsame]

/-- A delete removes the rows of its ids. -/
theorem delete_does (r : Relation) (ids : List Nat) :
    ∃ writes, Log.Does Record.kept r.schema r.log (.delete ids) (.deleted (r.delete ids).2) writes
        (r.delete ids).1.log ∧ (r.delete ids).1.rows = writes.foldl RowWrite.apply r.rows := by
  have hlog : (r.delete ids).1.log = r.log.remove ids := by
    rw [log, scan_delete, counters_delete.1]
    rfl
  refine ⟨_, ?_, rows_delete r ids⟩
  rw [hlog, snd_delete_eq]
  exact .delete

/-- **A call does to the rows what it does to the list**, by these writes. -/
theorem perform_does (hr : r.log.Ascends) (hcall : call.Proper)
    (h : (r.perform call).run t = ((r', reply), t')) :
    r'.schema = r.schema ∧ ∃ writes, Log.Does Record.kept r.schema r.log call reply writes r'.log ∧
      r'.rows = writes.foldl RowWrite.apply r.rows := by
  cases call with
  | insert slots =>
    rw [perform, StateT.run_bind] at h
    rcases hrun : (r.insert slots).run.run t with ⟨e | ⟨r₁, stored⟩, mid⟩ <;> rw [hrun] at h <;>
      cases h
    · exact ⟨rfl, [], .insertRefused, rfl⟩
    · exact ⟨(Step.insert hrun).schema_eq, insert_does hr hrun⟩
  | update changes =>
    rw [perform, StateT.run_bind] at h
    rcases hrun : (r.update changes).run.run t with ⟨e | ⟨r₁, n⟩, mid⟩ <;> rw [hrun] at h <;>
      cases h
    · exact ⟨rfl, [], .updateRefused, rfl⟩
    · exact ⟨(Step.update hrun).schema_eq, update_does hcall hrun⟩
  | delete ids =>
    cases h
    exact ⟨schema_delete, delete_does r ids⟩
  | truncate =>
    cases h
    refine ⟨rfl, [.clear], ?_, rfl⟩
    rw [truncate, size_eq]
    exact .truncate

/-- An update that is given leaves all ids, also where it lists one twice. -/
theorem ascends_update {changes : List (Nat × Row)} {n : Nat} (hr : r.log.Ascends)
    (h : Gives (r.update changes) t (r', n) t') : r'.log.Ascends := by
  obtain ⟨stored, hstored, -, rfl, rfl⟩ := gives_update.1 h
  obtain ⟨hscan, -⟩ := scan_update hstored
  refine ⟨?_, fun e he => ?_⟩
  · show ((stored.foldl put r).scan.map (·.1)).Pairwise (· < ·)
    rw [hscan, map_fst_replaced]
    exact hr.sorted
  · change e ∈ (stored.foldl put r).scan at he
    show e.1 < (stored.foldl put r).nextId
    rw [hscan] at he
    obtain ⟨d, hd, rfl⟩ := List.mem_map.1 he
    rw [fst_replaced, counters_putAll.1]
    exact hr.below d hd

/-- A call keeps the numbers of a relation ascending. -/
theorem perform_ascends (hr : r.log.Ascends) (h : (r.perform call).run t = ((r', reply), t')) :
    r'.log.Ascends := by
  cases call with
  | insert slots =>
    have hcall : (Call.insert slots).Proper := trivial
    obtain ⟨-, writes, hdoes, -⟩ := perform_does hr hcall h
    exact hdoes.ascends hr
  | update changes =>
    rw [perform, StateT.run_bind] at h
    rcases hrun : (r.update changes).run.run t with ⟨e | ⟨r₁, n⟩, mid⟩ <;> rw [hrun] at h <;>
      cases h
    · exact hr
    · exact ascends_update hr hrun
  | delete ids =>
    cases h
    obtain ⟨writes, hdoes, -⟩ := delete_does r ids
    exact hdoes.ascends hr
  | truncate =>
    cases h
    exact Log.ascends_clear r.log

/-- Calls in turn are the first call and then the others. -/
theorem performAll_cons (h : (r.performAll (call :: calls)).run t = ((r', replies), t')) :
    ∃ mid reply s replies', (r.perform call).run t = ((mid, reply), s) ∧
      (mid.performAll calls).run s = ((r', replies'), t') ∧ replies = reply :: replies' := by
  rw [performAll, StateT.run_bind] at h
  rcases hone : (r.perform call).run t with ⟨⟨mid, reply⟩, s⟩
  rw [hone] at h
  change StateT.run (mid.performAll calls >>= _) s = _ at h
  rw [StateT.run_bind] at h
  rcases hrest : (mid.performAll calls).run s with ⟨⟨last, replies'⟩, s'⟩
  rw [hrest] at h
  cases h
  exact ⟨mid, reply, s, replies', rfl, hrest, rfl⟩

/-- **Calls in turn** do to the rows what they do to the list. -/
theorem performAll_does (hr : r.log.Ascends) (hcalls : ∀ call ∈ calls, call.Proper)
    (h : (r.performAll calls).run t = ((r', replies), t')) :
    ∃ writes, Log.DoesAll Record.kept r.schema r.log calls replies writes r'.log ∧
      r'.rows = writes.foldl RowWrite.apply r.rows := by
  induction calls generalizing r t replies with
  | nil =>
    cases h
    exact ⟨[], .nil _, rfl⟩
  | cons call calls ih =>
    obtain ⟨hcall, hcalls⟩ := List.forall_mem_cons.1 hcalls
    obtain ⟨mid, reply, s, replies', hone, hrest, rfl⟩ := performAll_cons h
    obtain ⟨hschema, writes, hdoes, hrows⟩ := perform_does hr hcall hone
    obtain ⟨writes', hdoesAll, hrows'⟩ := ih (hdoes.ascends hr) hcalls hrest
    rw [hschema] at hdoesAll
    exact ⟨writes ++ writes', .cons hdoes hdoesAll, by rw [hrows', hrows, List.foldl_append]⟩

/-- The ids of a relation that calls have led to ascend. -/
theorem Arises.ascends (hr : r.Arises) : r.log.Ascends := by
  obtain ⟨schema, start, calls, t, rfl⟩ := hr
  have hrun : ∀ (calls : List Call) (q : Relation) (t : Time.Clock), q.log.Ascends →
      ((q.performAll calls).run t).1.1.log.Ascends := by
    intro calls
    induction calls with
    | nil => exact fun q t hq => hq
    | cons call calls ih =>
      intro q t hq
      obtain ⟨mid, reply, s, replies', hone, hrest, -⟩ := performAll_cons (r := q) (t := t) rfl
      have hmid := ih mid s (perform_ascends hq hone)
      rw [hrest] at hmid
      exact hmid
  exact hrun calls (new schema start) t ⟨.nil, fun _ he => nomatch he⟩

/-- **A relation is an append-only list**, whatever is asked of it: of the rows as they are kept,
and so of the rows themselves where all that is handed over round trips. `writes` are what the calls
write, and a map of byte strings that is written so has the same rows, in the same order and under
the keys of their ids. -/
theorem performAll_refines (hr : r.Arises) (hcalls : ∀ call ∈ calls, call.Proper)
    (h : (r.performAll calls).run t = ((r', replies), t')) :
    ∃ writes, Log.DoesAll Record.kept r.schema r.log calls replies writes r'.log ∧
      (r.schema.RoundTrips → (∀ call ∈ calls, call.RoundTrips) →
        Log.DoesAll id r.schema r.log calls replies writes r'.log) ∧
      r'.log.Ascends ∧ r.log.GoesOn r'.log ∧ r'.size = r'.scan.length ∧
      ∀ m : KeyedRows, m.Mirrors r.rows → r'.nextId ≤ RowKey.limit →
        (writes.foldl KeyedRows.write m).Mirrors r'.rows ∧
          (writes.foldl KeyedRows.write m).scan = some r'.scan ∧
          (writes.foldl KeyedRows.write m).size = r'.size ∧
          ∀ id < RowKey.limit, (writes.foldl KeyedRows.write m).contains (RowKey.ofId id) =
            r'.rows.contains id := by
  obtain ⟨writes, hdoes, hrows⟩ := performAll_does hr.ascends hcalls h
  have hascends : r'.log.Ascends := hdoes.ascends hr.ascends
  have hgoesOn : r.log.GoesOn r'.log := hdoes.goesOn
  refine ⟨writes, hdoes, hdoes.of_roundTrips, hascends, hgoesOn, r'.size_eq, fun m hm hnext => ?_⟩
  have hkeys : KeyedRows.HaveKeys r.rows := fun e he =>
    Nat.lt_of_lt_of_le (hr.ascends.below _ (List.mem_map_of_mem he))
      (Nat.le_trans hgoesOn.next hnext)
  have hkeys' : KeyedRows.HaveKeys r'.rows := fun e he =>
    Nat.lt_of_lt_of_le (hascends.below _ (List.mem_map_of_mem he)) hnext
  have hmirrors := hm.writeAll hkeys (hdoes.hasKey hr.ascends hcalls hnext)
  rw [← hrows] at hmirrors
  exact ⟨hmirrors, hmirrors.scan hkeys', hmirrors.size, fun id hid => hmirrors.contains hkeys' hid⟩

/-- A table of numbers, and of the times at which they were changed. -/
def counted : Relation :=
  new ⟨"t", [⟨"a", .integer, false, false, false, none, false⟩,
    ⟨"at", .timestamp, true, false, false, none, true⟩]⟩ 1

/-- Two rows, another first row, a row that is refused, the first row taken away, and a third
row. -/
def countedCalls : List Call :=
  [.insert [[some (.integer 1), none], [some (.integer 2), none]],
    .update [(0, [.integer 5, .null])], .insert [[some .null, none]], .delete [0, 7],
    .insert [[some (.integer 3), none]]]

/-- The ids 1 and 2 are left; the id of the row that was refused is that of the third. -/
theorem performAll_refines_counted :
    ∃ r' replies t' writes, counted.Arises ∧ (∀ call ∈ countedCalls, call.Proper) ∧
      (counted.performAll countedCalls).run ⟨0, []⟩ = ((r', replies), t') ∧
      r'.scan = [(1, [.integer 2, .null]), (2, [.integer 3, .null])] ∧
      counted.schema.RoundTrips ∧ (∀ call ∈ countedCalls, call.RoundTrips) ∧
      Log.DoesAll id counted.schema counted.log countedCalls replies writes r'.log ∧
      (writes.foldl KeyedRows.write .empty).scan = some r'.scan := by
  have harises : counted.Arises := ⟨_, _, [], ⟨0, []⟩, rfl⟩
  have hproper : ∀ call ∈ countedCalls, call.Proper := by
    simp [countedCalls, Call.Proper, RowKey.limit]
  have hschema : counted.schema.RoundTrips := by
    simp [counted, new, Schema.RoundTrips, Column.RoundTrips]
  have hcalls : ∀ call ∈ countedCalls, call.RoundTrips := by
    simp [countedCalls, Call.RoundTrips, SlotsRoundTrip, Record.roundTrips_iff, Value.RoundTrips,
      Value.encode, Value.decode]
  have hlast : ((counted.performAll countedCalls).run ⟨0, []⟩).1.1.scan =
      [(1, [.integer 2, .null]), (2, [.integer 3, .null])] ∧
      ((counted.performAll countedCalls).run ⟨0, []⟩).1.1.nextId ≤ RowKey.limit := by
    decide +kernel
  rcases hrun : (counted.performAll countedCalls).run ⟨0, []⟩ with ⟨⟨r', replies⟩, t'⟩
  rw [hrun] at hlast
  obtain ⟨writes, -, hdoes, -, -, -, hkeyed⟩ := performAll_refines harises hproper hrun
  exact ⟨r', replies, t', writes, harises, hproper, rfl, hlast.1, hschema, hcalls,
    hdoes hschema hcalls, (hkeyed .empty KeyedRows.mirrors_empty hlast.2).2.1⟩

end Relation

end MiniSql
