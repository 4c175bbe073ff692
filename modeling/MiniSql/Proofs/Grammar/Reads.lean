/-
# What a parser reads, step by step

`Reads p ahead a rest` says that the parser `p` reads the value `a` off the tokens `ahead` and
leaves `rest`. Each way to build a parser has one law, an equivalence: from left to right it takes
a successful reading apart, from right to left it puts one together. With these laws no later
proof opens a parser as a function.

A loop has three laws: it stops at a token that calls for no round (`Reads.loop_stop`), it goes on
after a round (`Reads.loop_round`), and what each round keeps the whole loop keeps
(`Reads.loop_invariant`).
-/

import MiniSql.Grammar.Parser

namespace MiniSql
namespace Grammar
namespace Parser

variable {α β σ : Type}

/-- The parser reads `a` off the tokens ahead and leaves `rest`. -/
def Reads (p : Parser α) (ahead : List Token) (a : α) (rest : List Token) : Prop :=
  ∃ h, p ahead = .ok ⟨a, rest, h⟩

/-- What a parser gives is what it reads. -/
theorem reads_of_eq {p : Parser α} {ahead : List Token} {r : Reading α ahead}
    (h : p ahead = .ok r) : Reads p ahead r.value r.rest := ⟨r.rest_le, h⟩

/-- A value that is there is read from nothing. -/
@[simp] theorem reads_pure {a b : α} {ahead rest : List Token} :
    Reads (pure a) ahead b rest ↔ a = b ∧ ahead = rest := by
  constructor
  · rintro ⟨h, e⟩
    cases e
    exact ⟨rfl, rfl⟩
  · rintro ⟨rfl, rfl⟩
    exact ⟨Nat.le_refl _, rfl⟩

/-- **Two parsers** read one after the other. -/
@[simp] theorem reads_bind {p : Parser α} {f : α → Parser β} {ahead rest : List Token} {b : β} :
    Reads (p >>= f) ahead b rest ↔
      ∃ a mid, Reads p ahead a mid ∧ Reads (f a) mid b rest := by
  show (∃ _, andThen p f ahead = _) ↔ _
  unfold andThen
  constructor
  · rintro ⟨h, e⟩
    split at e
    · cases e
    · rename_i r hr
      split at e
      · cases e
      · rename_i q hq
        cases e
        exact ⟨r.value, r.rest, ⟨r.rest_le, hr⟩, ⟨q.rest_le, hq⟩⟩
  · rintro ⟨a, mid, ⟨h, hr⟩, ⟨h', hq⟩⟩
    exact ⟨Nat.le_trans h' h, by simp [hr, hq]⟩

/-- A refusal reads nothing. -/
@[simp] theorem not_reads_refuse {w : Wanted} {ahead rest : List Token} {a : α} :
    ¬Reads (refuse w) ahead a rest := by
  rintro ⟨_, e⟩
  cases e

/-- Looking ahead takes nothing. -/
@[simp] theorem reads_look {ahead rest seen : List Token} :
    Reads look ahead seen rest ↔ seen = ahead ∧ rest = ahead := by
  constructor
  · rintro ⟨_, e⟩
    cases e
    exact ⟨rfl, rfl⟩
  · rintro ⟨rfl, rfl⟩
    exact ⟨Nat.le_refl _, rfl⟩

/-- Looking ahead takes nothing. -/
@[simp] theorem reads_look_bind {f : List Token → Parser β} {ahead rest : List Token} {b : β} :
    Reads (look >>= f) ahead b rest ↔ Reads (f ahead) ahead b rest := by
  rw [reads_bind]
  constructor
  · rintro ⟨_, _, h, h'⟩
    obtain ⟨rfl, rfl⟩ := reads_look.1 h
    exact h'
  · exact fun h => ⟨_, _, reads_look.2 ⟨rfl, rfl⟩, h⟩

/-- An expected token is read where it stands. -/
@[simp] theorem reads_expect {k : Kind} {ahead rest : List Token} {t : Token} :
    Reads (expect k) ahead t rest ↔ ahead = t :: rest ∧ t.kind = k := by
  constructor
  · rintro ⟨_, e⟩
    unfold expect at e
    split at e
    · cases e
    · split at e
      · cases e
        exact ⟨rfl, by assumption⟩
      · cases e
  · rintro ⟨rfl, hk⟩
    exact ⟨Nat.le_succ _, by simp [expect, hk]⟩

/-- An expected keyword is read where it stands. -/
@[simp] theorem reads_expectWord {k : Keyword} {ahead rest : List Token} {t : Token} :
    Reads (expectWord k) ahead t rest ↔ ahead = t :: rest ∧ t.kind = .keyword k := reads_expect

/-- The tokens ahead do not start with one of this kind. -/
def NotAhead (k : Kind) (ahead : List Token) : Prop := ∀ t ∈ ahead.head?, t.kind ≠ k

/-- At the end no token stands ahead. -/
@[simp] theorem notAhead_nil {k : Kind} : NotAhead k [] := by simp [NotAhead]

/-- A token of another kind is not the one. -/
@[simp] theorem notAhead_cons {k : Kind} {t : Token} {ahead : List Token} :
    NotAhead k (t :: ahead) ↔ t.kind ≠ k := by simp [NotAhead]

/-- A token is accepted where it stands. -/
theorem reads_accept_true {k : Kind} {ahead rest : List Token} :
    Reads (accept k) ahead true rest ↔ ∃ t, ahead = t :: rest ∧ t.kind = k := by
  constructor
  · rintro ⟨_, e⟩
    unfold accept at e
    split at e
    · cases e
    · split at e
      · cases e
        exact ⟨_, rfl, by assumption⟩
      · cases e
  · rintro ⟨t, rfl, hk⟩
    exact ⟨Nat.le_succ _, by simp [accept, hk]⟩

/-- Where it does not, nothing is taken. -/
theorem reads_accept_false {k : Kind} {ahead rest : List Token} :
    Reads (accept k) ahead false rest ↔ ahead = rest ∧ NotAhead k ahead := by
  constructor
  · rintro ⟨_, e⟩
    unfold accept at e
    split at e
    · cases e
      exact ⟨rfl, notAhead_nil⟩
    · split at e
      · cases e
      · cases e
        exact ⟨rfl, notAhead_cons.2 (by assumption)⟩
  · rintro ⟨rfl, hk⟩
    refine ⟨Nat.le_refl _, ?_⟩
    unfold accept
    split
    · rfl
    · rw [if_neg (notAhead_cons.1 hk)]

/-- **What may be missing** is read if it is there, and else nothing is. -/
@[simp] theorem reads_accept_bind {k : Kind} {f : Bool → Parser β} {ahead rest : List Token}
    {b : β} :
    Reads (accept k >>= f) ahead b rest ↔
      (∃ t mid, ahead = t :: mid ∧ t.kind = k ∧ Reads (f true) mid b rest) ∨
        (NotAhead k ahead ∧ Reads (f false) ahead b rest) := by
  rw [reads_bind]
  constructor
  · rintro ⟨found, mid, h, h'⟩
    cases found with
    | true =>
      obtain ⟨t, rfl, hk⟩ := reads_accept_true.1 h
      exact .inl ⟨t, mid, rfl, hk, h'⟩
    | false =>
      obtain ⟨rfl, hk⟩ := reads_accept_false.1 h
      exact .inr ⟨hk, h'⟩
  · rintro (⟨t, mid, rfl, hk, h'⟩ | ⟨hk, h'⟩)
    · exact ⟨true, mid, reads_accept_true.2 ⟨t, rfl, hk⟩, h'⟩
    · exact ⟨false, ahead, reads_accept_false.2 ⟨rfl, hk⟩, h'⟩

/-- A keyword may stand ahead or not, and the reading goes on either way. -/
@[simp] theorem reads_acceptWord_bind {k : Keyword} {f : Bool → Parser β}
    {ahead rest : List Token} {b : β} :
    Reads (acceptWord k >>= f) ahead b rest ↔
      (∃ t mid, ahead = t :: mid ∧ t.kind = .keyword k ∧ Reads (f true) mid b rest) ∨
        (NotAhead (.keyword k) ahead ∧ Reads (f false) ahead b rest) := reads_accept_bind

/-! ## Loops -/

variable {round : Token → Option (σ → Parser σ)}

/-- A loop stops where the token ahead calls for no round. -/
theorem Reads.loop_stop {s : σ} {ahead : List Token} (h : ∀ t ∈ ahead.head?, round t = none) :
    Reads (loop round s) ahead s ahead := by
  refine ⟨Nat.le_refl _, ?_⟩
  cases ahead with
  | nil => rw [loop]
  | cons t rest =>
    have ht : round t = none := h t rfl
    rw [loop]
    split
    · rfl
    · rename_i hf
      rw [ht] at hf
      cases hf

/-- A loop goes on after a round. -/
theorem Reads.loop_round {s s' s'' : σ} {t : Token} {f : σ → Parser σ} {ahead mid rest : List Token}
    (hf : round t = some f) (h : Reads (f s) ahead s' mid)
    (h' : Reads (loop round s') mid s'' rest) : Reads (loop round s) (t :: ahead) s'' rest := by
  obtain ⟨hl, h⟩ := h
  obtain ⟨hl', h'⟩ := h'
  refine ⟨Nat.le_trans hl' (Nat.le_trans hl (Nat.le_succ _)), ?_⟩
  rw [loop]
  split
  · rename_i hn
    rw [hf] at hn
    cases hn
  · rename_i g hg
    rw [hf] at hg
    cases hg
    simp [h, h']

/-- A loop that has read something has stopped at once or made a round. -/
theorem Reads.loop_cases {s s' : σ} {ahead rest : List Token}
    (h : Reads (loop round s) ahead s' rest) :
    (s = s' ∧ ahead = rest ∧ ∀ t ∈ ahead.head?, round t = none) ∨
      ∃ t tail f s₁ mid, ahead = t :: tail ∧ round t = some f ∧ Reads (f s) tail s₁ mid ∧
        Reads (loop round s₁) mid s' rest := by
  obtain ⟨_, e⟩ := h
  rw [loop.eq_def] at e
  split at e
  · cases e
    exact .inl ⟨rfl, rfl, by simp⟩
  · split at e
    · cases e
      exact .inl ⟨rfl, rfl, by simpa⟩
    · rename_i f hf
      split at e
      · cases e
      · rename_i r hr
        split at e
        · cases e
        · rename_i q hq
          cases e
          exact .inr ⟨_, _, f, r.value, r.rest, rfl, hf, ⟨r.rest_le, hr⟩, ⟨q.rest_le, hq⟩⟩

/-- **What every round keeps, a loop keeps.** The invariant speaks of the tokens taken so far and
of the state that they led to. -/
theorem Reads.loop_invariant {I : List Token → σ → Prop}
    (step : ∀ {u s t f tail s' mid}, I u s → round t = some f → Reads (f s) tail s' mid →
      ∃ v, tail = v ++ mid ∧ I (u ++ t :: v) s')
    {s s' : σ} {ahead rest u : List Token} (h : Reads (loop round s) ahead s' rest) (hI : I u s) :
    ∃ v, ahead = v ++ rest ∧ I (u ++ v) s' := by
  induction hn : ahead.length using Nat.strongRecOn generalizing ahead s u with
  | ind n ih =>
    rcases h.loop_cases with ⟨rfl, rfl, -⟩ | ⟨t, tail, f, s₁, mid, rfl, hf, h₁, h₂⟩
    · exact ⟨[], rfl, by simpa using hI⟩
    · obtain ⟨v, rfl, hI'⟩ := step hI hf h₁
      have hlt : mid.length < n := by
        simp only [List.length_cons, List.length_append] at hn
        omega
      obtain ⟨w, rfl, hI''⟩ := ih mid.length hlt h₂ hI' rfl
      exact ⟨t :: v ++ w, by simp, by simpa using hI''⟩

end Parser
end Grammar
end MiniSql
