/-
# The law of an update

When an update of some rows is accepted, and what it stores (`Relation.update_law`). Each listed id
must be that of a stored row and each new row one that the columns store. Whether the keys are
distinct is asked of the table as it will be, after the stamps: not of one row after the other, and
not of the old keys of the rows that are listed. It is the table as it is read, so the rows as they
are kept are asked for. They are the rows themselves where the new rows round trip.

| keys of the listed rows | update |
| --- | --- |
| repeat one of a row that is not listed | refused |
| repeat each other | refused |
| are their old keys, in any order | accepted (`Relation.Permutes.keysStayDistinct`) |

What the listed rows are replaced by is fixed by the clock (`Relation.Replaces`).
-/

import MiniSql.Proofs.Store.Cells
import MiniSql.Proofs.Store.Keys
import MiniSql.Proofs.Store.Log

namespace MiniSql
namespace Relation

open Timed

/-! ## What an update stores -/

/-- The rows that an update stores for those it lists: under the same ids, with the values as the
columns store them and the next readings of the clock as stamps. -/
structure Replaces (s : Schema) (t : Time.Clock) (changes stored : List (Nat × Row))
    (t' : Time.Clock) : Prop where
  rows : List.Forall₂ (fun e d => d.1 = e.1 ∧ Cells Column.Restamps s.columns e.2 d.2)
    changes stored
  stamps : Readings t (stored.flatMap fun d => stampsOf s.columns d.2) t'

/-- Rows under their ids, of which `keep` says what becomes when they are stored. -/
def keepAll (keep : Row → Row) (stored : List (Nat × Row)) : List (Nat × Row) :=
  stored.map fun d => (d.1, keep d.2)

/-- The primary keys of the table are distinct, once the rows stand in the places of their ids. -/
def KeysStayDistinct (r : Relation) (placed : List (Nat × Row)) : Prop :=
  ∀ key, r.schema.primaryKey? = some key → DistinctAt key (r.log.replace placed).entries

/-- The primary keys of the rows are those of the rows that they replace, in some order. -/
def Permutes (r : Relation) (placed : List (Nat × Row)) : Prop :=
  ∀ key, r.schema.primaryKey? = some key →
    (placed.map fun d => valueAt key d.2).Perm
      ((r.scan.filter fun e => e.1 ∈ placed.map (·.1)).map fun e => valueAt key e.2)

/-- The second relation is the first after an update at some time, which has counted the rows and
stored what `keep` keeps of them. -/
structure Updates (keep : Row → Row) (r : Relation) (changes : List (Nat × Row)) (t : Time.Clock)
    (n : Nat) (r' : Relation) (t' : Time.Clock) : Prop where
  schema : r'.schema = r.schema
  nextNumber : r'.nextNumber = r.nextNumber
  count : n = changes.length
  /-- The rows of the listed ids are replaced in their places, and no others. -/
  rows : ∃ stored, Replaces r.schema t changes stored t' ∧
    r'.log = r.log.replace (keepAll keep stored) ∧ (∀ d ∈ keepAll keep stored, d ∈ r'.scan) ∧
      ∀ e ∈ r.scan, e.1 ∉ changes.map (·.1) → e ∈ r'.scan

/-- The law of an update at some time, where `keep` says what becomes of a row that is stored. -/
structure UpdateLaw (keep : Row → Row) (r : Relation) (changes : List (Nat × Row))
    (t : Time.Clock) : Prop where
  /-- It is accepted when the listed ids are stored, the columns store the new rows, and the keys of
  the table are distinct once these are in their places. -/
  accepted : (∃ r' n t', Gives (r.update changes) t (r', n) t') ↔
    (∀ e ∈ changes, e.1 ∈ r.scan.map (·.1)) ∧
      (∀ e ∈ changes, List.Forall₂ (fun c v => ∃ w, c.Stores v w) r.schema.columns e.2) ∧
      ∀ stored t', Replaces r.schema t changes stored t' →
        r.KeysStayDistinct (keepAll keep stored)
  /-- They are where the keys only move among the listed rows. -/
  permuted : ∀ stored t', (∀ e ∈ changes, e.1 ∈ r.scan.map (·.1)) →
    Replaces r.schema t changes stored t' → r.Permutes (keepAll keep stored) →
      ∃ r', Gives (r.update changes) t (r', changes.length) t'
  /-- It then replaces the listed rows and no others. -/
  stores : ∀ r' n t', Gives (r.update changes) t (r', n) t' → r.Updates keep changes t n r' t'
  /-- Otherwise it leaves the relation as it is. -/
  refused : ∀ e t', Refuses (r.update changes) t e t' →
    (r.perform (.update changes)).run t = ((r, .refused e), t')

variable {r r' : Relation} {s : Schema} {t t' : Time.Clock}
  {changes stored placed : List (Nat × Row)} {e d : Nat × Row} {n key : Nat}

/-- The rows stored have the numbers of those that were to change. -/
theorem Replaces.ids (h : Replaces s t changes stored t') :
    stored.map (·.1) = changes.map (·.1) := by
  have hrows := h.rows
  clear h
  induction hrows with
  | nil => rfl
  | cons h _ ih => rw [List.map_cons, List.map_cons, h.1, ih]

/-- The rows stored have numbers that are there. -/
theorem Replaces.ids_mem (h : Replaces s t changes stored t')
    (hthere : ∀ e ∈ changes, e.1 ∈ r.scan.map (·.1)) : ∀ d ∈ stored, d.1 ∈ r.scan.map (·.1) := by
  intro d hd
  have hid : d.1 ∈ changes.map (·.1) := h.ids ▸ List.mem_map_of_mem hd
  obtain ⟨e, he, hsame⟩ := List.mem_map.1 hid
  exact hsame ▸ hthere e he

/-! ## Storing the listed rows -/

/-- **One change**: its row is stored, and what it becomes is what an update stores for it. -/
theorem gives_change_iff : Gives (r.change e.1 e.2) t d t' ↔
    e.1 ∈ r.scan.map (·.1) ∧ d.1 = e.1 ∧ Cells Column.Restamps r.schema.columns e.2 d.2 ∧
      Readings t (stampsOf r.schema.columns d.2) t' := by
  rw [gives_change, contains_iff, ← stamped_iff]
  refine and_congr_right fun _ => ?_
  constructor
  · rintro ⟨prepared, stamped, hprepared, hstamped, rfl⟩
    exact ⟨rfl, prepared, prepare_eq_ok.1 hprepared, hstamped⟩
  · rintro ⟨hid, prepared, hprepared, hstamped⟩
    exact ⟨prepared, d.2, prepare_eq_ok.2 hprepared, hstamped, Prod.ext hid rfl⟩

/-- **The listed rows** are stored one after the other. -/
theorem gives_changes_iff : Gives (changes.mapM fun e => r.change e.1 e.2) t stored t' ↔
    (∀ e ∈ changes, e.1 ∈ r.scan.map (·.1)) ∧ Replaces r.schema t changes stored t' := by
  induction changes generalizing t stored with
  | nil =>
    constructor
    · intro h
      obtain ⟨rfl, rfl⟩ := gives_pure.1 h
      exact ⟨fun _ h => (nomatch h), .nil, .nil t⟩
    · rintro ⟨-, ⟨⟩, ⟨⟩⟩
      exact gives_pure.2 ⟨rfl, rfl⟩
  | cons e changes ih =>
    rw [List.mapM_cons, gives_bind, List.forall_mem_cons]
    constructor
    · rintro ⟨d, mid, hd, h⟩
      obtain ⟨rest, _, hrest, h⟩ := gives_bind.1 h
      obtain ⟨rfl, rfl⟩ := gives_pure.1 h
      obtain ⟨hid, hsame, hcells, hstamps⟩ := gives_change_iff.1 hd
      obtain ⟨hids, hrows, hrestStamps⟩ := ih.1 hrest
      refine ⟨⟨hid, hids⟩, .cons ⟨hsame, hcells⟩ hrows, ?_⟩
      rw [List.flatMap_cons]
      exact hstamps.append hrestStamps
    · rintro ⟨⟨hid, hids⟩, hrows, hstamps⟩
      cases hrows with
      | @cons _ d _ rest hd hrest =>
        rw [List.flatMap_cons, Readings.append_iff] at hstamps
        obtain ⟨mid, hfirst, hstamps⟩ := hstamps
        exact ⟨d, mid, gives_change_iff.2 ⟨hid, hd.1, hd.2, hfirst⟩,
          gives_bind.2 ⟨rest, t', ih.2 ⟨hids, hrest, hstamps⟩, gives_pure.2 ⟨rfl, rfl⟩⟩⟩

/-- A row that is stored under its id is stamped. -/
theorem exists_restamped {columns : List Column} {row : Row}
    (h : List.Forall₂ (fun c v => ∃ w, c.Stores v w) columns row) :
    ∃ stored t', Cells Column.Restamps columns row stored ∧
      Readings t (stampsOf columns stored) t' := by
  obtain ⟨prepared, hprepared⟩ := Cells.exists_iff.2 h
  obtain ⟨stored, t', hstamp⟩ := exists_gives_stamp columns prepared t
  exact ⟨stored, t', stamped_iff.1 ⟨prepared, hprepared, hstamp⟩⟩

/-- Rows are stored when the columns store all their values. -/
theorem exists_replaces_iff : (∃ stored t', Replaces s t changes stored t') ↔
    ∀ e ∈ changes, List.Forall₂ (fun c v => ∃ w, c.Stores v w) s.columns e.2 := by
  constructor
  · rintro ⟨stored, t', hrows, -⟩
    induction hrows with
    | nil => exact fun _ h => nomatch h
    | @cons e d _ _ hd _ ih =>
      refine List.forall_mem_cons.2 ⟨?_, ih⟩
      exact (Cells.exists_iff.1 ⟨d.2, hd.2⟩).imp fun _ _ => Column.exists_restamps_iff.1
  · intro h
    induction changes generalizing t with
    | nil => exact ⟨[], t, .nil, .nil t⟩
    | cons e changes ih =>
      obtain ⟨he, h⟩ := List.forall_mem_cons.1 h
      obtain ⟨row, mid, hcells, hfirst⟩ := exists_restamped (t := t) he
      obtain ⟨stored, t', hrows, hstamps⟩ := ih (t := mid) h
      refine ⟨(e.1, row) :: stored, t', .cons ⟨rfl, hcells⟩ hrows, ?_⟩
      rw [List.flatMap_cons]
      exact hfirst.append hstamps

/-! ## The rows in their places -/

/-- A row that is stored stands under its id. -/
theorem mem_replace (hids : (placed.map (·.1)).Nodup) (hd : d ∈ placed)
    (hid : d.1 ∈ r.scan.map (·.1)) : d ∈ (r.log.replace placed).entries := by
  obtain ⟨e, he, hsame⟩ := List.mem_map.1 hid
  have hplace : replaced placed e = d := by
    rcases replaced_cases placed e with hmem | ⟨-, hnot⟩
    · exact List.inj_on_of_nodup_map hids hmem hd (by rw [fst_replaced, hsame])
    · exact absurd (hsame ▸ List.mem_map_of_mem hd) hnot
  refine List.mem_map.2 ⟨e, he, ?_⟩
  rw [← replaced_eq_lookup hids, hplace]

/-- A row of another id stays. -/
theorem mem_replace_of_not_mem (hids : (placed.map (·.1)).Nodup) (he : e ∈ r.scan)
    (hnot : e.1 ∉ placed.map (·.1)) : e ∈ (r.log.replace placed).entries := by
  refine List.mem_map.2 ⟨e, he, ?_⟩
  rw [← replaced_eq_lookup hids]
  rcases replaced_cases placed e with hmem | ⟨hsame, -⟩
  · have hid := List.mem_map_of_mem (f := Prod.fst) hmem
    rw [fst_replaced] at hid
    exact absurd hid hnot
  · exact hsame

/-- Nothing else stands there. -/
theorem mem_or_mem_of_mem_replace (hids : (placed.map (·.1)).Nodup)
    (he : e ∈ (r.log.replace placed).entries) :
    e ∈ placed ∨ e ∈ r.scan ∧ e.1 ∉ placed.map (·.1) := by
  obtain ⟨d, hd, rfl⟩ := List.mem_map.1 he
  rw [← replaced_eq_lookup hids]
  rcases replaced_cases placed d with hmem | ⟨hsame, hnot⟩
  · exact .inl hmem
  · exact .inr ⟨hsame.symm ▸ hd, hsame.symm ▸ hnot⟩

/-- Rows with distinct ids whose keys are distinct have no key twice. -/
theorem DistinctAt.nodup {entries : List (Nat × Row)} (h : DistinctAt key entries)
    (hids : (entries.map (·.1)).Nodup) : (entries.map fun e => valueAt key e.2).Nodup := by
  refine List.Nodup.map_on (fun e he d hd heq => ?_) (List.Nodup.of_map _ hids)
  exact List.inj_on_of_nodup_map hids he hd (h e he d hd heq)

/-- New keys that differ from each other and from those of the other rows are distinct in the table
as it will be. -/
theorem distinctAt_replace (hr : DistinctAt key r.scan) (hids : (placed.map (·.1)).Nodup)
    (hnodup : (placed.map fun d => valueAt key d.2).Nodup)
    (hnew : ∀ d ∈ placed, ∀ e ∈ r.scan, e.1 ∉ placed.map (·.1) →
      valueAt key d.2 ≠ valueAt key e.2) :
    DistinctAt key (r.log.replace placed).entries := by
  intro e he e' he' heq
  rcases mem_or_mem_of_mem_replace hids he with hd | ⟨he, hid⟩ <;>
    rcases mem_or_mem_of_mem_replace hids he' with hd' | ⟨he', hid'⟩
  · exact congrArg Prod.fst (List.inj_on_of_nodup_map hnodup hd hd' heq)
  · exact absurd heq (hnew e hd e' he' hid')
  · exact absurd heq.symm (hnew e' hd' e he hid)
  · exact hr e he e' he' heq

/-- **The check is about the table as it will be**, where its keys have been distinct. -/
theorem checkUnique_iff_keysStayDistinct (hr : r.KeysDistinct) (hids : (stored.map (·.1)).Nodup)
    (hstored : ∀ d ∈ stored, d.1 ∈ r.scan.map (·.1)) :
    r.checkUnique (stored.map (·.2)) (stored.map (·.1)) = .ok () ↔
      r.KeysStayDistinct (keepAll Record.kept stored) := by
  have hids' := map_fst_keptAt stored ▸ hids
  have hstored' : ∀ d ∈ stored.map keptAt, d.1 ∈ r.scan.map (·.1) :=
    List.forall_mem_map.2 hstored
  rw [checkUnique_eq_ok, ← map_snd_keptAt, ← map_fst_keptAt]
  refine forall₂_congr fun key hkey => ?_
  rw [List.map_map]
  constructor
  · rintro ⟨hnodup, hnew⟩
    exact distinctAt_replace (hr key hkey) hids' hnodup
      fun d hd => hnew d.2 (List.mem_map_of_mem hd)
  · intro hdistinct
    have hmem : ∀ d ∈ stored.map keptAt, d ∈ (r.log.replace (stored.map keptAt)).entries :=
      fun d hd => mem_replace hids' hd (hstored' d hd)
    constructor
    · have hkeys : DistinctAt key (stored.map keptAt) :=
        fun d hd d' hd' => hdistinct d (hmem d hd) d' (hmem d' hd')
      exact hkeys.nodup hids'
    · intro row hrow e he hnot heq
      obtain ⟨d, hd, rfl⟩ := List.mem_map.1 hrow
      have hsame : d.1 = e.1 :=
        hdistinct d (hmem d hd) e (mem_replace_of_not_mem hids' he hnot) heq
      exact hnot (hsame ▸ List.mem_map_of_mem hd)

/-- **Keys may move among the listed rows**: they are distinct in the table as it will be. -/
theorem Permutes.keysStayDistinct (hr : r.KeysDistinct) (hids : (placed.map (·.1)).Nodup)
    (h : r.Permutes placed) : r.KeysStayDistinct placed := by
  intro key hkey
  have hperm := h key hkey
  have hold : DistinctAt key (r.scan.filter fun e => e.1 ∈ placed.map (·.1)) := fun e he d hd =>
    hr key hkey e (List.mem_filter.1 he).1 d (List.mem_filter.1 hd).1
  have hnodup := hold.nodup (nodup_ids.sublist (List.filter_sublist.map _))
  rw [← hperm.nodup_iff] at hnodup
  refine distinctAt_replace (hr key hkey) hids hnodup fun d hd e he hnot heq => ?_
  -- The key is the old one of a listed row, so that the other row is this row.
  obtain ⟨e', he', hsame⟩ := List.mem_map.1 (hperm.subset (List.mem_map_of_mem hd))
  obtain ⟨he', hlisted⟩ := List.mem_filter.1 he'
  have hid : e'.1 = e.1 := hr key hkey e' he' e he (hsame.trans heq)
  rw [hid, decide_eq_true_iff] at hlisted
  exact hnot hlisted

/-! ## The law -/

/-- A call to update answers with the count. -/
theorem perform_update (h : Gives (r.update changes) t (r', n) t') :
    (r.perform (.update changes)).run t = ((r', .updated n), t') := by
  rw [perform, StateT.run_bind, show (r.update changes).run.run t = _ from h]
  rfl

/-- A call that is refused leaves the relation. -/
theorem perform_update_refused {error : Error} (h : Refuses (r.update changes) t error t') :
    (r.perform (.update changes)).run t = ((r, .refused error), t') := by
  rw [perform, StateT.run_bind, show (r.update changes).run.run t = _ from h]
  rfl

section Law

variable (hr : r.KeysDistinct) (hids : (changes.map (·.1)).Nodup)

include hr hids

/-- An update that is accepted. -/
theorem updates_of_gives (h : Gives (r.update changes) t (r', n) t') :
    r.Updates Record.kept changes t n r' t' ∧ (∀ e ∈ changes, e.1 ∈ r.scan.map (·.1)) ∧
      ∀ stored t', Replaces r.schema t changes stored t' →
        r.KeysStayDistinct (keepAll Record.kept stored) := by
  obtain ⟨stored, hstored, hunique, rfl, rfl⟩ := gives_update.1 h
  obtain ⟨hthere, hreplaces⟩ := gives_changes_iff.1 hstored
  have hnodup : (stored.map (·.1)).Nodup := hreplaces.ids ▸ hids
  have hnodup' := map_fst_keptAt stored ▸ hnodup
  have hthere' := hreplaces.ids_mem hthere
  have hlog := log_putAll hnodup hthere'
  have hscan : (stored.foldl put r).scan = (r.log.replace (stored.map keptAt)).entries :=
    congrArg Log.entries hlog
  refine ⟨⟨schema_putAll, counters_putAll.2, hreplaces.rows.length_eq.symm, stored, hreplaces, hlog,
    ?_, ?_⟩, hthere, ?_⟩
  · intro d hd
    obtain ⟨e, he, rfl⟩ := List.mem_map.1 hd
    exact hscan ▸ mem_replace hnodup' hd (hthere' e he)
  · intro e he hnot
    refine hscan ▸ mem_replace_of_not_mem hnodup' he ?_
    rw [map_fst_keptAt, hreplaces.ids]
    exact hnot
  · intro stored' s' hreplaces'
    -- There is only one way to store the listed rows.
    have hsame := hstored.symm.trans (gives_changes_iff.2 ⟨hthere, hreplaces'⟩)
    cases hsame
    exact (checkUnique_iff_keysStayDistinct hr hnodup hthere').1 hunique

/-- Rows that can be stored are, if the keys stay distinct. -/
theorem gives_update_of_keysStayDistinct (hthere : ∀ e ∈ changes, e.1 ∈ r.scan.map (·.1))
    (h : Replaces r.schema t changes stored t')
    (hkeys : r.KeysStayDistinct (keepAll Record.kept stored)) :
    ∃ r', Gives (r.update changes) t (r', changes.length) t' := by
  have hnodup : (stored.map (·.1)).Nodup := h.ids ▸ hids
  have hunique := (checkUnique_iff_keysStayDistinct hr hnodup (h.ids_mem hthere)).2 hkeys
  have hchanges := gives_changes_iff.2 ⟨hthere, h⟩
  exact ⟨_, gives_update.2 ⟨stored, hchanges, hunique, rfl, h.rows.length_eq⟩⟩

/-- The law of the rows as they are kept. -/
theorem updateLaw_kept (t : Time.Clock) : r.UpdateLaw Record.kept changes t := by
  refine ⟨⟨?_, ?_⟩, ?_, fun r' n t' h => (updates_of_gives hr hids h).1,
    fun e t' h => perform_update_refused h⟩
  · rintro ⟨r', n, t', h⟩
    obtain ⟨hupdates, hthere, hkeys⟩ := updates_of_gives hr hids h
    obtain ⟨stored, hstored, -⟩ := hupdates.rows
    exact ⟨hthere, exists_replaces_iff.1 ⟨stored, t', hstored⟩, hkeys⟩
  · rintro ⟨hthere, hvalues, hkeys⟩
    obtain ⟨stored, t', hstored⟩ := (exists_replaces_iff (t := t)).2 hvalues
    obtain ⟨r', h⟩ := gives_update_of_keysStayDistinct hr hids hthere hstored
      (hkeys stored t' hstored)
    exact ⟨r', changes.length, t', h⟩
  · intro stored t' hthere hstored hpermutes
    have hnodup : ((keepAll Record.kept stored).map (·.1)).Nodup := by
      rw [show keepAll Record.kept stored = stored.map keptAt from rfl, map_fst_keptAt, hstored.ids]
      exact hids
    exact gives_update_of_keysStayDistinct hr hids hthere hstored
      (hpermutes.keysStayDistinct hr hnodup)

omit hr hids in
/-- Rows are kept as they are, if those that they are stored for round trip. -/
theorem Replaces.keepAll_kept (h : Replaces r.schema t changes stored t')
    (hthere : ∀ e ∈ changes, e.1 ∈ r.scan.map (·.1))
    (hchanges : ∀ e ∈ changes, Record.RoundTrips e.2) :
    keepAll Record.kept stored = keepAll id stored := by
  refine List.map_congr_left fun d hd => ?_
  obtain ⟨e, he, _, _, hchange⟩ := exists_mem_of_forall₂ (gives_changes_iff.2 ⟨hthere, h⟩).mapM hd
  have hkept : Record.kept d.2 = d.2 := change_roundTrips (hchanges e he) hchange
  rw [hkept, id]

omit hr hids in
/-- So the law of the rows as they are kept is that of the rows. -/
theorem UpdateLaw.of_roundTrips (h : r.UpdateLaw Record.kept changes t)
    (hchanges : ∀ e ∈ changes, Record.RoundTrips e.2) : r.UpdateLaw id changes t := by
  refine ⟨h.accepted.trans ?_, fun stored t' hthere hstored hpermutes => ?_,
    fun r' n t' hgiven => ?_, h.refused⟩
  · refine and_congr_right fun hthere => and_congr_right fun _ => ?_
    refine forall₂_congr fun stored t' => imp_congr_right fun hstored => ?_
    rw [hstored.keepAll_kept hthere hchanges]
  · exact h.permuted stored t' hthere hstored (hstored.keepAll_kept hthere hchanges ▸ hpermutes)
  · have hupdates := h.stores r' n t' hgiven
    obtain ⟨stored, hstored, hrows⟩ := hupdates.rows
    have hthere := (h.accepted.1 ⟨r', n, t', hgiven⟩).1
    rw [hstored.keepAll_kept hthere hchanges] at hrows
    exact { hupdates with rows := ⟨stored, hstored, hrows⟩ }

/-- **The law of an update.** It is accepted exactly when the listed ids are stored, the columns
store the new rows, and the keys of the table are distinct once these are in their places, as they
are where the keys only move among the listed rows. It then replaces the listed rows and no others;
otherwise it leaves the relation as it is. What is compared and stored are the rows as they are
kept, which are the rows themselves if the new ones round trip. -/
theorem update_law (t : Time.Clock) : r.UpdateLaw Record.kept changes t ∧
    ((∀ e ∈ changes, Record.RoundTrips e.2) → r.UpdateLaw id changes t) :=
  ⟨updateLaw_kept hr hids t, (updateLaw_kept hr hids t).of_roundTrips⟩

end Law

/-- Three rows with keys, and the time of their last change. -/
def threeKeys : Relation :=
  [[.integer 1, .text "a", .null], [.integer 2, .text "b", .null],
    [.integer 3, .text "c", .null]].foldl push
    (new ⟨"t", [⟨"k", .integer, false, false, true, none, false⟩,
      ⟨"name", .text, true, false, false, none, false⟩,
      ⟨"at", .timestamp, true, false, false, none, true⟩]⟩ 1)

/-- The first two rows with each other's key. -/
def swappedKeys : List (Nat × Row) :=
  [(1, [.integer 1, .text "b", .null]), (0, [.integer 2, .text "a", .null])]

/-- The keys are swapped, and the third row stays; a key that it has is refused. -/
theorem update_law_swappedKeys : ∃ r n t, threeKeys.KeysDistinct ∧
    (swappedKeys.map (·.1)).Nodup ∧ threeKeys.Updates id swappedKeys ⟨0, []⟩ n r t ∧ n = 2 ∧
    r.scan.map (fun e => (e.1, e.2.take 2)) =
      [(0, [.integer 2, .text "a"]), (1, [.integer 1, .text "b"]), (2, [.integer 3, .text "c"])] ∧
    ∃ e t', (threeKeys.perform (.update [(0, [.integer 3, .null, .null])])).run ⟨0, []⟩ =
      ((threeKeys, .refused e), t') := by
  have hdistinct : threeKeys.KeysDistinct := by
    have hprimary : threeKeys.schema.primaryKey? = some 0 := by decide
    have hscan : ∀ e ∈ threeKeys.scan, ∀ d ∈ threeKeys.scan, valueAt 0 e.2 = valueAt 0 d.2 →
        e.1 = d.1 := by decide +kernel
    intro key hkey
    rw [hprimary] at hkey
    cases hkey
    exact hscan
  have hids : (swappedKeys.map (·.1)).Nodup := by decide
  have hrows : ∀ e ∈ swappedKeys, Record.RoundTrips e.2 := by
    simp [swappedKeys, Record.roundTrips_iff, Value.RoundTrips, Value.encode, Value.decode]
  have hswapped : ((threeKeys.perform (.update swappedKeys)).run ⟨0, []⟩).1.1.scan.map
      (fun e => (e.1, e.2.take 2)) = [(0, [.integer 2, .text "a"]), (1, [.integer 1, .text "b"]),
        (2, [.integer 3, .text "c"])] := by decide +kernel
  have hgiven : ((threeKeys.update swappedKeys).run.run ⟨0, []⟩).1.isOk = true := by decide +kernel
  have hother : ((threeKeys.update [(0, [.integer 3, .null, .null])]).run.run ⟨0, []⟩).1.isOk =
      false := by decide +kernel
  rcases gives_or_refuses (threeKeys.update swappedKeys) ⟨0, []⟩ with ⟨⟨r, n⟩, t, h⟩ | ⟨e, t, h⟩
  · have hupdates := ((update_law hdistinct hids ⟨0, []⟩).2 hrows).stores r n t h
    rw [perform_update h] at hswapped
    refine ⟨r, n, t, hdistinct, hids, hupdates, hupdates.count, hswapped, ?_⟩
    rcases gives_or_refuses (threeKeys.update [(0, [.integer 3, .null, .null])]) ⟨0, []⟩ with
      ⟨_, t', h'⟩ | ⟨e, t', h'⟩
    · rw [show (threeKeys.update _).run.run ⟨0, []⟩ = _ from h'] at hother
      cases hother
    · have hone : ([((0 : Nat), [Value.integer 3, .null, .null])].map (·.1)).Nodup :=
        List.nodup_singleton _
      exact ⟨e, t', (update_law hdistinct hone ⟨0, []⟩).1.refused e t' h'⟩
  · rw [show (threeKeys.update _).run.run ⟨0, []⟩ = _ from h] at hgiven
    cases hgiven

end Relation
end MiniSql
