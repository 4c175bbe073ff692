/-
# Joins on a condition in a session

A condition between two tables can stand behind their join or in the `WHERE`. Where the condition
does not ask for the time both texts are answered alike (`Session.joined_law`):

| the condition | answered alike | refused alike |
| --- | --- | --- |
| has a value for every pair of rows | yes | yes, for the same reason |
| has none for some pair | both are refused | the reason may differ |

The reason may differ since the join tests its condition of all pairs before the `WHERE` is looked
at, and the conjunction tests both of one pair after the other. Nothing is asked of the predicate of
the `WHERE`, which may read the clock.
-/

import MiniSql.Proofs.Plan.Joined
import MiniSql.Proofs.Session.Read
import MiniSql.Proofs.Session.Sorted

namespace MiniSql

open Timed
open Grammar (Tree Token Conjoins)
open Grammar.Spells (Predicate)

/-! ## The rows of both sources -/

namespace Query

variable {table : String → Except Error Relation} {source : Query} {e e' both : Expression}
  {set : Rowset} {t t' mid : Time.Clock}

/-- The filter of a conjunction tests its sides one behind the other. -/
theorem run_filter_both (hboth : ∀ labels row, both.holds labels row =
      Timed.both (e.holds labels row) (e'.holds labels row)) :
    (filter source both).run table = source.run table >>= fun set =>
      Rowset.keep (fun row => Timed.both (e.holds set.columns row) (e'.holds set.columns row))
        set.rows >>= fun rows => return { set with rows := rows } := by
  have htest (set : Rowset) : both.holds set.columns =
      fun row => Timed.both (e.holds set.columns row) (e'.holds set.columns row) :=
    funext (hboth set.columns)
  simp only [run, Rowset.filter, htest]

/-- Rows filtered twice are those kept by both predicates. -/
theorem run_filter_filter (source : Query) (e e' : Expression) :
    (filter (filter source e) e').run table = source.run table >>= fun set =>
      (Rowset.keep (e.holds set.columns) set.rows >>= Rowset.keep (e'.holds set.columns)) >>=
        fun rows => return { set with rows := rows } := by
  simp only [run, Rowset.filter, bind_assoc, pure_bind]

/-- Two filters in turn, and one of a conjunction, give the same rows. -/
theorem gives_filter_filter (hclock : e.readsClock = false)
    (hboth : ∀ labels row, both.holds labels row =
      Timed.both (e.holds labels row) (e'.holds labels row)) :
    Gives ((filter (filter source e) e').run table) t set t' ↔
      Gives ((filter source both).run table) t set t' := by
  rw [run_filter_filter, run_filter_both hboth, gives_bind, gives_bind]
  refine exists₂_congr fun rows mid => and_congr_right fun _ => ?_
  rw [gives_bind, gives_bind]
  exact exists₂_congr fun kept last => and_congr_left fun _ => Rowset.gives_keep_keep hclock

/-- They are one computation where the first has a value for each row of the source. -/
theorem run_filters_eq (hclock : e.readsClock = false)
    (hboth : ∀ labels row, both.holds labels row =
      Timed.both (e.holds labels row) (e'.holds labels row))
    (hdecides : ∀ set mid, Gives (source.run table) t set mid → e.Decides set.columns set.rows) :
    ((filter (filter source e) e').run table).run.run t =
      ((filter source both).run table).run.run t := by
  rw [run_filter_filter, run_filter_both hboth, run_bind, run_bind]
  rcases hset : (source.run table).run.run t with ⟨x | set, mid⟩
  · rfl
  · dsimp only
    rw [Rowset.keep_keep hclock (hdecides set mid hset)]

/-- A filter of a join on a condition is a filter of a filtered product. -/
theorem run_filter_join (left right : Query) (e e' : Expression) :
    (filter (join left right (some e) false) e').run table =
      (filter (filter (join left right none false) e) e').run table := by
  rw [run, run_join_inner]
  rfl

end Query

/-! ## Statements -/

namespace Session

variable {s : Session} {st st' : Statement} {source source' q q' : Query}

/-- The two statements are answered alike: where one has an answer the other has the same, and
leaves the same. -/
def Alike (s : Session) (st st' : Statement) : Prop :=
  ∀ answer s', s.execute st = (.ok answer, s') ↔ s.execute st' = (.ok answer, s')

/-- To read aggregates is to make them of the rows read. -/
theorem read_aggregate (s : Session) (source : Query) (calls : List AggregateCall)
    (offset limit : Option Nat) :
    s.read ((Query.aggregate source calls).paged offset limit) =
      s.read source >>= fun set =>
        Timed.ofExcept (set.aggregate calls >>= fun shown => .ok (shown.paged offset limit)) := by
  have hlocks : (Plan.query ((Query.aggregate source calls).paged offset limit)).locks =
      (Plan.query source).locks :=
    congrArg (List.foldl LockRequest.read .empty) (Query.tables_paged offset limit _)
  simp only [read, hlocks, Query.run, Query.run_paged, bind_assoc, map_bind, Timed.ofExcept_bind]
  rfl

/-- What the last steps of a query make of the rows of their source, whatever the source is. -/
theorem exists_shows (d : Planning.Draft) : (∃ x, ∀ q, (d.onto q).query = .error x) ∨
    ∃ f : Rowset → Except Error Rowset, ∀ source, ∃ q, (d.onto source).query = .ok q ∧
      ∀ s : Session, s.read q = s.read source >>= fun set => Timed.ofExcept (f set) := by
  cases hcalls : d.calls with
  | nil =>
    cases hkeys : d.keys with
    | nil =>
      refine .inr ⟨fun set => (set.paged d.offset d.limit).project d.items, fun source =>
        ⟨.projection (source.paged d.offset d.limit) d.items, ?_,
          fun s => s.read_paged source d.offset d.limit d.items⟩⟩
      simp only [Planning.Draft.query, Planning.Draft.onto, hcalls, hkeys]
      rfl
    | cons key keys =>
      refine .inr ⟨_, fun source =>
        ⟨.projection ((Query.order source d.keys).paged d.offset d.limit) d.items, ?_,
          fun s => s.read_sorted source d.keys d.offset d.limit d.items⟩⟩
      simp only [Planning.Draft.query, Planning.Draft.onto, hcalls, hkeys]
      rfl
  | cons call calls =>
    cases hitems : d.items with
    | nil =>
      refine .inr ⟨_, fun source => ⟨(Query.aggregate source d.calls).paged d.offset d.limit, ?_,
        fun s => s.read_aggregate source d.calls d.offset d.limit⟩⟩
      simp only [Planning.Draft.query, Planning.Draft.onto, hcalls, hitems]
      rfl
    | cons item items =>
      refine .inl ⟨.schema .mixedAggregates, fun source => ?_⟩
      simp only [Planning.Draft.query, Planning.Draft.onto, hcalls, hitems]
      rfl

/-- Statements whose last steps are the same are answered alike where their sources are. -/
theorem alike_of_sources {f : Rowset → Except Error Rowset} (hplan : s.plan st = .ok (.query q))
    (hplan' : s.plan st' = .ok (.query q'))
    (hread : s.read q = s.read source >>= fun set => Timed.ofExcept (f set))
    (hread' : s.read q' = s.read source' >>= fun set => Timed.ofExcept (f set))
    (hsame : ∀ set clock, Gives (s.read source) s.clock set clock ↔
      Gives (s.read source') s.clock set clock) : s.Alike st st' := by
  rcases gives_or_refuses (s.read source) s.clock with ⟨set, clock, hset⟩ | ⟨x, clock, hrefused⟩
  · intro answer s'
    rw [execute_of_read hplan hread hset, execute_of_read hplan' hread' ((hsame _ _).1 hset)]
  · rcases gives_or_refuses (s.read source') s.clock with ⟨set, mid, hset⟩ | ⟨x', mid, hrefused'⟩
    · exact absurd hrefused ((hsame _ _).2 hset).not_refuses
    · intro answer s'
      rw [execute_of_unread hplan hread hrefused, execute_of_unread hplan' hread' hrefused']
      constructor <;> intro h <;> cases h

/-- They are the same where both sources are one computation. -/
theorem execute_eq_of_sources {f : Rowset → Except Error Rowset}
    (hplan : s.plan st = .ok (.query q)) (hplan' : s.plan st' = .ok (.query q'))
    (hread : s.read q = s.read source >>= fun set => Timed.ofExcept (f set))
    (hread' : s.read q' = s.read source' >>= fun set => Timed.ofExcept (f set))
    (hsame : (s.read source).run.run s.clock = (s.read source').run.run s.clock) :
    s.execute st = s.execute st' := by
  rcases gives_or_refuses (s.read source) s.clock with ⟨set, clock, hset⟩ | ⟨x, clock, hrefused⟩
  · rw [execute_of_read hplan hread hset, execute_of_read hplan' hread' (hsame.symm.trans hset)]
  · rw [execute_of_unread hplan hread hrefused,
      execute_of_unread hplan' hread' (hsame.symm.trans hrefused)]

/-- The rows of all pairs, which a condition between two tables is asked of. -/
def readPairs (s : Session) (a b : String) : Timed Rowset :=
  s.read (.join (.scan a) (.scan b) none false)

/-- A query is refused where its locks are, and is run where they are granted. -/
theorem run_read (s : Session) (q : Query) : (s.read q).run.run s.clock =
    match s.database.catalog.grant (Plan.query q).locks with
    | .error x => (.error x, s.clock)
    | .ok _ => (q.run (s.database.catalog.table (Plan.query q).locks)).run.run s.clock := by
  unfold read
  cases s.database.catalog.grant (Plan.query q).locks <;> rfl

variable {joined filtered : Statement} {items : List Tree} {a b : String} {p q c : Tree}

/-- Both statements are refused for one reason, or their sources are filtered by a condition, and by
the same condition before another. -/
theorem plan_joined (hjoined : Grammar.parse joined.sql = .ok (.selectJoin items a b p q))
    (hfiltered : Grammar.parse filtered.sql = .ok (.selectProduct items a b c))
    (hc : Conjoins p q c) (harguments : filtered.arguments = joined.arguments) :
    (∃ x, s.plan joined = .error x ∧ s.plan filtered = .error x) ∨
      ∃ (e e' both : Expression) (q q' : Query) (f : Rowset → Except Error Rowset),
        Planning.predicate joined.arguments p = .ok e ∧
        (∀ labels row, both.holds labels row =
          Timed.both (e.holds labels row) (e'.holds labels row)) ∧
        s.plan joined = .ok (.query q) ∧ s.plan filtered = .ok (.query q') ∧
        (s.read q = s.read (.filter (.join (.scan a) (.scan b) (some e) false) e') >>=
          fun set => Timed.ofExcept (f set)) ∧
        s.read q' = s.read (.filter (.join (.scan a) (.scan b) none false) both) >>=
          fun set => Timed.ofExcept (f set) := by
  unfold plan
  rw [harguments]
  rcases Plan.ofText_joined hjoined hfiltered hc with
    hfault | ⟨d, e, e', both, hpredicate, hboth, hplan, hplan'⟩
  · exact .inl hfault
  · rw [hplan, hplan']
    rcases exists_shows d with ⟨x, hx⟩ | ⟨f, hf⟩
    · rw [hx, hx]
      exact .inl ⟨x, rfl, rfl⟩
    · obtain ⟨q, hq, hread⟩ := hf (.filter (.join (.scan a) (.scan b) (some e) false) e')
      obtain ⟨q', hq', hread'⟩ := hf (.filter (.join (.scan a) (.scan b) none false) both)
      rw [hq, hq']
      exact .inr ⟨e, e', both, q, q', f, hpredicate, hboth, rfl, rfl, hread s, hread' s⟩

/-- A condition that does not ask for the time may stand behind the join or in the `WHERE`. -/
theorem alike_joined (hjoined : Grammar.parse joined.sql = .ok (.selectJoin items a b p q))
    (hfiltered : Grammar.parse filtered.sql = .ok (.selectProduct items a b c))
    (hc : Conjoins p q c) (harguments : filtered.arguments = joined.arguments)
    (hclock : ∀ e, Planning.predicate joined.arguments p = .ok e → e.readsClock = false) :
    s.Alike joined filtered ∧
      ((∀ e set clock, Planning.predicate joined.arguments p = .ok e →
        Gives (s.readPairs a b) s.clock set clock → e.Decides set.columns set.rows) →
        s.execute joined = s.execute filtered) := by
  rcases plan_joined (s := s) hjoined hfiltered hc harguments with
    ⟨x, hx, hx'⟩ | ⟨e, e', both, q, q', f, hpredicate, hboth, hplan, hplan', hread, hread'⟩
  · have hsame : s.execute joined = s.execute filtered :=
      (execute_eq (Database.execute_of_fault hx)).trans
        (execute_eq (Database.execute_of_fault hx')).symm
    refine ⟨fun answer s' => ?_, fun _ => hsame⟩
    rw [hsame]
  · have he := hclock e hpredicate
    refine ⟨alike_of_sources hplan hplan' hread hread' fun set clock => ?_, fun hdecides =>
      execute_eq_of_sources hplan hplan' hread hread' ?_⟩
    · unfold read
      rw [gives_bind, gives_bind, Query.run_filter_join]
      exact exists₂_congr fun _ mid => and_congr_right fun _ =>
        Query.gives_filter_filter he hboth
    · rw [run_read, run_read]
      -- Both sources ask for the locks of the product.
      let locks := (Plan.query (.join (.scan a) (.scan b) none false)).locks
      show (match s.database.catalog.grant locks with
        | .error x => _
        | .ok _ => _) =
          match s.database.catalog.grant locks with
          | .error x => _
          | .ok _ => _
      cases hgrant : s.database.catalog.grant locks with
      | error x => rfl
      | ok _ =>
        dsimp only
        rw [Query.run_filter_join]
        refine Query.run_filters_eq he hboth fun set mid hset => hdecides e set mid hpredicate ?_
        exact gives_bind.2 ⟨(), s.clock, gives_ofExcept.2 ⟨hgrant, rfl⟩, hset⟩

/-- **A condition may stand behind a join or in the `WHERE`.** An inner join is a filter of the
product, for all steps of a query and whatever is asked. So two texts are answered alike of which
one has the condition behind the join and the other with `AND` before what the first has in its
`WHERE`, where the condition does not ask for the time; and where it has a value for every pair of
rows they are refused alike too. -/
theorem execute_joined :
    (∀ (table : String → Except Error Relation) (left right : Query) (e : Expression),
      (Query.join left right (some e) false).run table =
        (Query.filter (.join left right none false) e).run table) ∧
    (∀ (u v : List Token) (a : Token) (p q c : Tree), Predicate .conjunction u p →
      a.kind = .keyword .AND → Predicate .conjunction v q →
      Predicate .disjunction (u ++ a :: v) c → Conjoins p q c) ∧
    ∀ (s : Session) (joined filtered : Statement) (items : List Tree) (a b : String) (p q c : Tree),
      Grammar.parse joined.sql = .ok (.selectJoin items a b p q) →
      Grammar.parse filtered.sql = .ok (.selectProduct items a b c) → Conjoins p q c →
      filtered.arguments = joined.arguments →
      (∀ e, Planning.predicate joined.arguments p = .ok e → e.readsClock = false) →
      s.Alike joined filtered ∧
        ((∀ e set clock, Planning.predicate joined.arguments p = .ok e →
          Gives (s.readPairs a b) s.clock set clock → e.Decides set.columns set.rows) →
          s.execute joined = s.execute filtered) :=
  ⟨Query.run_join_inner, fun _ _ _ _ _ _ => Grammar.conjoins_of_spelled,
    fun _ _ _ _ _ _ _ _ _ => alike_joined⟩

/-- A session with two tables of which some keys match and some are `NULL`. -/
def matched : Session :=
  ((new .standard ⟨0, []⟩).run [⟨"CREATE TABLE a (k INT, x INT)", []⟩,
    ⟨"CREATE TABLE b (k INT, y TEXT)", []⟩,
    ⟨"INSERT INTO a VALUES (1, 1), (NULL, 2), (2, 3), (1, 4)", []⟩,
    ⟨"INSERT INTO b VALUES (1, 'q'), (1, 'p'), (NULL, 'p')", []⟩]).2

/-- A condition behind a join. -/
def behindJoin : Statement :=
  ⟨"SELECT x, y FROM a JOIN b ON a.k = b.k WHERE x < 4 AND y = 'p'", []⟩

/-- The same condition before the others. -/
def inWhere : Statement :=
  ⟨"SELECT x, y FROM a, b WHERE a.k = b.k AND x < 4 AND y = 'p'", []⟩

/-- Both give the one pair of which all three hold. -/
theorem execute_joined_matched :
    (matched.execute behindJoin).1 = .ok (.rows ⟨["x", "y"], [[.integer 1, .text "p"]]⟩) ∧
      matched.execute behindJoin = matched.execute inWhere := by
  let key : Tree := ⟨.equal, "=", [⟨.ident, "k", [.table "a" []]⟩, ⟨.ident, "k", [.table "b" []]⟩]⟩
  let below : Tree := ⟨.less, "<", [.leaf .ident "x", .leaf .number "4"]⟩
  let named : Tree := ⟨.equal, "=", [.leaf .ident "y", .leaf .string "p"]⟩
  have hjoined : Grammar.parse behindJoin.sql = .ok (.selectJoin
      [.leaf .ident "x", .leaf .ident "y"] "a" "b" key (.word .AND [below, named])) := by
    decide +kernel
  have hfiltered : Grammar.parse inWhere.sql = .ok (.selectProduct
      [.leaf .ident "x", .leaf .ident "y"] "a" "b"
      (.word .AND [.word .AND [key, below], named])) := by
    decide +kernel
  let pairs : Rowset := ⟨["a.k", "a.x", "b.k", "b.y"],
    [[.integer 1, .integer 1], [.null, .integer 2], [.integer 2, .integer 3],
      [.integer 1, .integer 4]].flatMap fun left =>
        [[.integer 1, .text "q"], [.integer 1, .text "p"], [.null, .text "p"]].map (left ++ ·)⟩
  have hpairs : Gives (matched.readPairs "a" "b") matched.clock pairs matched.clock := by
    show @Eq (Except Error Rowset × Time.Clock) _ _
    decide +kernel
  refine ⟨by decide +kernel, (execute_joined.2.2 matched behindJoin inWhere _ "a" "b" _ _ _ hjoined
    hfiltered (.regroup (.and below)) rfl ?_).2 ?_⟩
  · intro e he
    cases he
    rfl
  · intro e set clock he hset
    cases he
    obtain ⟨rfl, -⟩ := hpairs.unique hset
    show ∀ row ∈ pairs.rows, ∃ b, Expression.truth _ _ row = .ok b
    decide +kernel

end Session
end MiniSql
