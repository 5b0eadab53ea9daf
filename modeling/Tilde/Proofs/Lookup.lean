import Mathlib.Data.List.Basic
import Mathlib.Order.Bounds.Basic
import Tilde.Proofs.Growth

/-!
What is read and found in a sequence. A search walks over the positions of a range and
compares the lexeme and the kind of each token, so it finds the first position of the range
at which they are those of the token sought, and finds nothing only if there is no such
position. Where a token stands in its text plays no part: sequences whose tokens have the
same lexemes and kinds answer every question alike, but for the places of the tokens that
they give out.
-/

namespace Tilde

namespace TokenSeq

/-- A position of a sequence of a given size is in a range. A bound that is negative counts
from the end, and the lower one is then at least the beginning. -/
structure InRange (size : Nat) (start : Int) (stop : Option Int) (i : Nat) : Prop where
  start_le : (if start < 0 then max (size + start) 0 else start) ≤ i
  lt_stop : ∀ bound ∈ stop, (i : Int) < if bound < 0 then size + bound else bound
  lt_size : i < size

/-- At a position there is a token with the lexeme and the kind of another one. -/
def Holds (s : TokenSeq) (i : Nat) (token : Token) : Prop :=
  ∃ found, s.toList[i]? = some found ∧ found.lexeme = token.lexeme ∧ found.kind = token.kind

/-- The positions of a range at which a token is found. -/
def Matches (s : TokenSeq) (token : Token) (start : Int) (stop : Option Int) : Set Nat :=
  {i | InRange s.size start stop i ∧ s.Holds i token}

/-- A sequence is read as the list of its tokens is, and searched by lexemes and kinds. -/
structure ReadsAsList (s : TokenSeq) : Prop where
  get_eq_ok_iff : ∀ index token, s.get index = .ok token ↔
    ∃ i : Nat, (index = i ∨ index = i - s.size) ∧ s.toList[i]? = some token
  indexOf_eq_ok_iff : ∀ token start stop i, s.indexOf token start stop = .ok i ↔
    IsLeast (s.Matches token start stop) i
  indexOf_eq_error_iff : ∀ token start stop fault, s.indexOf token start stop = .error fault ↔
    fault = .absent ∧ ∀ i, i ∉ s.Matches token start stop
  contains_iff_indexOf : ∀ token, s.contains token = true ↔ ∃ i, s.indexOf token = .ok i
  contains_iff_count : ∀ token, s.contains token = true ↔ 0 < s.count token
  count_eq : ∀ token, s.count token = (s.toList.map Token.core).count token.core
  reversed_eq : s.reversed = s.toList.reverse

/-- Two sequences give the same answers, but for the places of the tokens given out. -/
structure AnswersAs (s t : TokenSeq) : Prop where
  kinds_eq : s.kinds = t.kinds
  lexemes_eq : s.lexemes = t.lexemes
  join_eq : s.join = t.join
  size_eq : s.size = t.size
  contains_eq : ∀ token, s.contains token = t.contains token
  count_eq : ∀ token, s.count token = t.count token
  indexOf_eq : ∀ token start stop, s.indexOf token start stop = t.indexOf token start stop
  core_get : ∀ index, (s.get index).map Token.core = (t.get index).map Token.core
  core_reversed : s.reversed.map Token.core = t.reversed.map Token.core
  core_withoutTrivia : s.withoutTrivia.map Token.core = t.withoutTrivia.map Token.core
  /-- The tokens with meaning are told apart by their places and by nothing else. -/
  withoutTrivia_eq_iff : s.withoutTrivia = t.withoutTrivia ↔
    s.withoutTrivia.map Token.location = t.withoutTrivia.map Token.location

/-! ### The walk -/

theorem holds_iff_agrees {s : TokenSeq} {i : Nat} {token found : Token}
    (hread : s.get? i = some found) : s.Holds i token ↔ found.agrees token = true := by
  rw [get?_natCast] at hread
  simp [Holds, hread, Token.core]

theorem Holds.lt_size {s : TokenSeq} {i : Nat} {token : Token} (h : s.Holds i token) :
    i < s.size := by
  obtain ⟨found, hfound, -⟩ := h
  exact lt_size_of_get?_natCast ((s.get?_natCast i).trans hfound)

/-- What a walk can find: the positions from one on, before `stop` if there is such a
bound, at which there is a token with the lexeme and kind that are sought. -/
def Ahead (s : TokenSeq) (token : Token) (stop : Option Int) (first : Nat) : Set Nat :=
  {i | first ≤ i ∧ (∀ bound ∈ stop, (i : Int) < bound) ∧ s.Holds i token}

/-- A walk finds the first of what it can find, or nothing if there is nothing to find. -/
theorem seek_cases (s : TokenSeq) (token : Token) (stop : Option Int) (first : Nat) :
    (∃ i, s.seek token stop first = .ok i ∧ IsLeast (s.Ahead token stop first) i) ∨
      s.seek token stop first = .error .absent ∧ ∀ i, i ∉ s.Ahead token stop first := by
  -- on the recursion of the walk
  fun_induction s.seek token stop first with
  | case1 first hstop =>
      obtain ⟨bound, hbound, hle⟩ : ∃ bound ∈ stop, bound ≤ (first : Int) := by
        simpa [Option.any_eq_true] using hstop
      refine .inr ⟨rfl, fun i ⟨hfirst, hbefore, _⟩ => ?_⟩
      have := hbefore bound hbound
      omega
  | case2 first hstop hread =>
      refine .inr ⟨rfl, fun i ⟨hfirst, _, hholds⟩ => ?_⟩
      have hsize : s.size ≤ first := by simpa [size_eq_length] using hread
      have := hholds.lt_size
      omega
  | case3 first hstop found hread hagrees =>
      have hbefore : ∀ bound ∈ stop, (first : Int) < bound := by
        simpa [Option.any_eq_false] using hstop
      exact .inl ⟨first, rfl, ⟨Nat.le_refl _, hbefore, (holds_iff_agrees hread).mpr hagrees⟩,
        fun i hi => hi.1⟩
  | case4 first hstop found hread hdiffers ih =>
      -- the position is passed over: what can be found from the next one on is all there is
      have hnext : s.Ahead token stop (first + 1) = s.Ahead token stop first := by
        ext i
        refine ⟨fun ⟨hi, hrest⟩ => ⟨Nat.le_of_succ_le hi, hrest⟩, fun ⟨hi, hrest⟩ => ?_⟩
        rcases Nat.eq_or_lt_of_le hi with rfl | hlt
        · exact absurd ((holds_iff_agrees hread).mp hrest.2) hdiffers
        · exact ⟨hlt, hrest⟩
      rwa [hnext] at ih

/-! ### Searching a range -/

theorem indexOf_cases (s : TokenSeq) (token : Token) (start : Int) (stop : Option Int) :
    (∃ i, s.indexOf token start stop = .ok i ∧ IsLeast (s.Matches token start stop) i) ∨
      s.indexOf token start stop = .error .absent ∧ ∀ i, i ∉ s.Matches token start stop := by
  let first : Int := if start < 0 then max (s.size + start) 0 else start
  let last : Option Int := stop.map fun bound => if bound < 0 then s.size + bound else bound
  have hahead : s.Ahead token last first.toNat = s.Matches token start stop := by
    ext i
    have hfirst : first.toNat ≤ i ↔ first ≤ i := Int.toNat_le
    have hlast : (∀ bound ∈ last, (i : Int) < bound) ↔
        ∀ bound ∈ stop, (i : Int) < if bound < 0 then s.size + bound else bound := by
      simp [last]
    constructor
    · rintro ⟨hi, hbefore, hholds⟩
      exact ⟨⟨hfirst.mp hi, hlast.mp hbefore, hholds.lt_size⟩, hholds⟩
    · rintro ⟨⟨hi, hbefore, _⟩, hholds⟩
      exact ⟨hfirst.mpr hi, hlast.mpr hbefore, hholds⟩
  rw [← hahead]
  exact s.seek_cases token last first.toNat

theorem indexOf_eq_ok_iff {s : TokenSeq} {token : Token} {start : Int} {stop : Option Int}
    {i : Nat} :
    s.indexOf token start stop = .ok i ↔ IsLeast (s.Matches token start stop) i := by
  rcases s.indexOf_cases token start stop with ⟨j, hj, hleast⟩ | ⟨hnone, hempty⟩
  · rw [hj, Except.ok.injEq]
    exact ⟨fun h => h ▸ hleast, fun h => hleast.unique h⟩
  · rw [hnone]
    exact ⟨fun h => (nomatch h), fun h => absurd h.1 (hempty i)⟩

theorem indexOf_eq_error_iff {s : TokenSeq} {token : Token} {start : Int}
    {stop : Option Int} {fault : SequenceFault} :
    s.indexOf token start stop = .error fault ↔
      fault = .absent ∧ ∀ i, i ∉ s.Matches token start stop := by
  rcases s.indexOf_cases token start stop with ⟨j, hj, hleast⟩ | ⟨hnone, hempty⟩
  · rw [hj]
    exact ⟨fun h => (nomatch h), fun h => absurd hleast.1 (h.2 j)⟩
  · rw [hnone, Except.error.injEq]
    exact ⟨fun h => ⟨h.symm, hempty⟩, fun h => h.1.symm⟩

/-! ### The whole sequence -/

theorem holds_iff_core {s : TokenSeq} {i : Nat} {token : Token} :
    s.Holds i token ↔ (s.toList.map Token.core)[i]? = some token.core := by
  simp [Holds, Token.core]

theorem contains_iff_core {s : TokenSeq} {token : Token} :
    s.contains token = true ↔ token.core ∈ s.toList.map Token.core := by
  rw [contains, List.any_eq_true, List.mem_map]
  refine exists_congr fun found => and_congr_right fun _ => ?_
  rw [Token.agrees_iff, eq_comm]

theorem count_eq_count_core (s : TokenSeq) (token : Token) :
    s.count token = (s.toList.map Token.core).count token.core := by
  rw [List.count, List.countP_map, count]
  refine List.countP_congr fun found _ => ?_
  rw [Token.agrees_iff, Function.comp_apply, beq_iff_eq, eq_comm]

theorem contains_iff_count {s : TokenSeq} {token : Token} :
    s.contains token = true ↔ 0 < s.count token := by
  rw [contains_iff_core, count_eq_count_core, List.count_pos_iff]

/-- The range that is meant if no bounds are given has all positions. -/
theorem contains_iff_indexOf {s : TokenSeq} {token : Token} :
    s.contains token = true ↔ ∃ i, s.indexOf token = .ok i := by
  constructor
  · intro hcontains
    obtain ⟨i, hi⟩ := List.mem_iff_getElem?.mp (contains_iff_core.mp hcontains)
    have hholds : s.Holds i token := holds_iff_core.mpr hi
    have hmatch : i ∈ s.Matches token 0 none :=
      ⟨⟨Int.natCast_nonneg i, fun _ h => (nomatch h), hholds.lt_size⟩, hholds⟩
    rcases s.indexOf_cases token 0 none with ⟨first, hfirst, -⟩ | ⟨-, hempty⟩
    · exact ⟨first, hfirst⟩
    · exact absurd hmatch (hempty i)
  · rintro ⟨i, hi⟩
    obtain ⟨⟨-, hholds⟩, -⟩ := indexOf_eq_ok_iff.mp hi
    exact contains_iff_core.mpr (List.mem_iff_getElem?.mpr ⟨i, holds_iff_core.mp hholds⟩)

theorem reversed_eq_reverse (s : TokenSeq) : s.reversed = s.toList.reverse := by
  have hread : (List.range s.size).map (s.toList[·]?) = s.toList.map some := by
    rw [size_eq_length]
    exact List.ext_getElem (by simp) fun i _ _ => by simp
  simp only [reversed, get?_natCast]
  calc (List.range s.size).reverse.filterMap (s.toList[·]?)
      = (((List.range s.size).map (s.toList[·]?)).filterMap id).reverse := by
        rw [List.filterMap_reverse, List.filterMap_map]
        rfl
    _ = ((s.toList.map some).filterMap id).reverse := by rw [hread]
    _ = s.toList.reverse := by simp

/-- An index that is negative counts from the end. -/
theorem get?_eq_some_iff {s : TokenSeq} {index : Int} {token : Token} :
    s.get? index = some token ↔
      ∃ i : Nat, (index = i ∨ index = i - s.size) ∧ s.toList[i]? = some token := by
  constructor
  · intro hread
    rw [get?, Option.ite_none_left_eq_some] at hread
    obtain ⟨hpos, htoken⟩ := hread
    refine ⟨_, ?_, by rwa [toList, Array.getElem?_toList]⟩
    split at hpos <;> split <;> omega
  · rintro ⟨i, rfl | rfl, hi⟩
    · rw [get?_natCast, hi]
    · have hlt : i < s.size := lt_size_of_get?_natCast ((s.get?_natCast i).trans hi)
      have hneg : (i : Int) - s.size < 0 := by omega
      have hfront : ¬((i : Int) < 0) := by omega
      rw [toList, Array.getElem?_toList] at hi
      rw [get?, if_pos hneg, Int.sub_add_cancel, if_neg hfront, Int.toNat_natCast, hi]

theorem get_eq_ok_iff {s : TokenSeq} {index : Int} {token : Token} :
    s.get index = .ok token ↔
      ∃ i : Nat, (index = i ∨ index = i - s.size) ∧ s.toList[i]? = some token := by
  rw [← get?_eq_some_iff, get]
  cases s.get? index <;> simp

theorem readsAsList (s : TokenSeq) : s.ReadsAsList where
  get_eq_ok_iff _ _ := get_eq_ok_iff
  indexOf_eq_ok_iff _ _ _ _ := indexOf_eq_ok_iff
  indexOf_eq_error_iff _ _ _ _ := indexOf_eq_error_iff
  contains_iff_indexOf _ := contains_iff_indexOf
  contains_iff_count _ := contains_iff_count
  count_eq := s.count_eq_count_core
  reversed_eq := s.reversed_eq_reverse

/-! ### Sequences that agree -/

section Agreement

variable {s t : TokenSeq}

theorem agrees_iff_core : s.agrees t = true ↔
    s.toList.map Token.core = t.toList.map Token.core := by
  rw [agrees, beq_iff_eq]

theorem kinds_eq_map_core (s : TokenSeq) :
    s.kinds = (s.toList.map Token.core).map Prod.snd := by
  simp [kinds, Token.core]

theorem lexemes_eq_map_core (s : TokenSeq) :
    s.lexemes = (s.toList.map Token.core).map Prod.fst := by
  simp [lexemes, Token.core]

theorem size_eq_length_core (s : TokenSeq) :
    s.size = (s.toList.map Token.core).length := by
  rw [List.length_map, size_eq_length]

/-- Whether a token has meaning is told by its kind. -/
theorem map_core_withoutTrivia (s : TokenSeq) :
    s.withoutTrivia.map Token.core =
      (s.toList.map Token.core).filter fun core => !(core.2.category == .trivia) := by
  rw [withoutTrivia, List.filter_map]
  rfl

/-- Tokens are told apart by their lexemes, their kinds and their places. -/
theorem eq_of_map_core {a b : List Token} (hcore : a.map Token.core = b.map Token.core)
    (hplace : a.map Token.location = b.map Token.location) : a = b := by
  have hinjective : Function.Injective fun token : Token => (token.core, token.location) := by
    rintro ⟨lexeme, kind, location⟩ ⟨lexeme', kind', location'⟩ h
    simpa [Token.core, and_assoc] using h
  refine List.map_injective_iff.mpr hinjective ?_
  calc a.map (fun token => (token.core, token.location))
      = (a.map Token.core).zip (a.map Token.location) := List.zip_map'.symm
    _ = (b.map Token.core).zip (b.map Token.location) := by rw [hcore, hplace]
    _ = b.map (fun token => (token.core, token.location)) := List.zip_map'

theorem size_eq_of_agrees (hagrees : s.agrees t = true) : s.size = t.size := by
  rw [size_eq_length_core, agrees_iff_core.mp hagrees, size_eq_length_core]

theorem matches_eq_of_agrees (hagrees : s.agrees t = true) (token : Token) (start : Int)
    (stop : Option Int) : s.Matches token start stop = t.Matches token start stop := by
  have hcore := agrees_iff_core.mp hagrees
  ext i
  change InRange s.size start stop i ∧ s.Holds i token ↔
    InRange t.size start stop i ∧ t.Holds i token
  rw [size_eq_of_agrees hagrees, holds_iff_core, hcore, holds_iff_core]

theorem indexOf_eq_of_agrees (hagrees : s.agrees t = true) (token : Token) (start : Int)
    (stop : Option Int) : s.indexOf token start stop = t.indexOf token start stop := by
  have hmatches := matches_eq_of_agrees hagrees token start stop
  cases hindex : t.indexOf token start stop with
  | ok i => rwa [indexOf_eq_ok_iff, hmatches, ← indexOf_eq_ok_iff]
  | error fault => rwa [indexOf_eq_error_iff, hmatches, ← indexOf_eq_error_iff]

theorem core_get_of_agrees (hagrees : s.agrees t = true) (index : Int) :
    (s.get index).map Token.core = (t.get index).map Token.core := by
  have hread : (s.get? index).map Token.core = (t.get? index).map Token.core := by
    have hcore (i : Nat) : s.toList[i]?.map Token.core = t.toList[i]?.map Token.core := by
      rw [← List.getElem?_map, agrees_iff_core.mp hagrees, List.getElem?_map]
    simp only [get?, size_eq_of_agrees hagrees]
    generalize (if index < 0 then index + (t.size : Int) else index) = offset
    split
    · rfl
    · simpa [toList] using hcore offset.toNat
  rw [get, get]
  cases hs : s.get? index with
  | none =>
      rw [hs, Option.map_none, eq_comm, Option.map_eq_none_iff] at hread
      rw [hread]
  | some token =>
      rw [hs, Option.map_some, eq_comm, Option.map_eq_some_iff] at hread
      obtain ⟨other, hother, hcore⟩ := hread
      rw [hother]
      exact congrArg Except.ok hcore.symm

theorem answersAs_of_agrees (hagrees : s.agrees t = true) : s.AnswersAs t := by
  have hcore := agrees_iff_core.mp hagrees
  have hlexemes : s.lexemes = t.lexemes := by
    rw [lexemes_eq_map_core, hcore, lexemes_eq_map_core]
  have hmeaning : s.withoutTrivia.map Token.core = t.withoutTrivia.map Token.core := by
    rw [map_core_withoutTrivia, hcore, map_core_withoutTrivia]
  constructor
  · rw [kinds_eq_map_core, hcore, kinds_eq_map_core]
  · exact hlexemes
  · rw [join, hlexemes, join]
  · exact size_eq_of_agrees hagrees
  · intro token
    rw [Bool.eq_iff_iff, contains_iff_core, hcore, contains_iff_core]
  · intro token
    rw [count_eq_count_core, hcore, count_eq_count_core]
  · exact indexOf_eq_of_agrees hagrees
  · exact core_get_of_agrees hagrees
  · rw [reversed_eq_reverse, reversed_eq_reverse, List.map_reverse, hcore, List.map_reverse]
  · exact hmeaning
  · exact ⟨fun h => by rw [h], eq_of_map_core hmeaning⟩

end Agreement

end TokenSeq

namespace Growth

open TokenSeq History

/-- A sequence is at any time the list of the tokens that were accepted for it, in their
order. It is read as this list and searched by lexemes and kinds, and a sequence that
agrees with it gives the same answers. -/
theorem sequence_reads_as_accepted (requests : List Request) :
    let h := askAll {} requests
    h.log.map Prod.fst = requests ∧
    (∀ request, Settled h.made request (respond h.made request)) ∧
    (∀ k more, content h.made k <+: content (h.askAll more).made k) ∧
    ∀ k s, h.made[k]? = some s →
      s.toList = h.log.flatMap (gain k) ∧ s.ReadsAsList ∧
      ∀ t, s.agrees t = true → s.AnswersAs t := by
  intro h
  refine ⟨requests_askAll {} requests, settled h.made,
    fun k more => content_prefix_askAll h more k, fun k s hs => ?_⟩
  have hcontent : s.toList = h.log.flatMap (gain k) := by
    rw [← content_eq_toList hs]
    exact recorded_empty.askAll requests k
  exact ⟨hcontent, s.readsAsList, fun t => answersAs_of_agrees⟩

/-- A sequence that has a word twice, with requests in between that are refused or are for
another sequence, and one that agrees with it and has its words at other places. -/
theorem sequence_reads_as_accepted_twice :
    let word (line column : Int) : Token := ⟨"x", .identifier, some ⟨"m.tl", line, column⟩⟩
    let remark : Token := ⟨"~x~", .comment, none⟩
    let requests : List Request :=
      [.make [.token (word 1 1), .token remark], .add 0 (.other "tuple"),
       .make [.token remark, .other "str", .other "int"], .make [],
       .add 1 (.token remark), .add 0 (.token (word 2 1)), .add 2 (.token remark)]
    let s : TokenSeq := .ofList [word 1 1, remark, word 2 1]
    let t : TokenSeq := .ofList [word 7 3, remark, ⟨"x", .identifier, none⟩]
    let h := askAll {} requests
    (h.made[0]? = some s ∧ s.agrees t = true) ∧
    s.toList = h.log.flatMap (gain 0) ∧
    IsLeast (s.Matches (word 9 9) (-2) (some 4)) 2 ∧
    (∀ i, i ∉ s.Matches (word 9 9) 1 (some (-1))) ∧
    s.contains (word 9 9) = true ∧ s.AnswersAs t ∧ s.withoutTrivia ≠ t.withoutTrivia := by
  intro word remark requests s t h
  have hmade : h.made[0]? = some s := by decide +kernel
  have hagrees : s.agrees t = true := by decide +kernel
  have hfirst : s.indexOf (word 9 9) = .ok 0 := by decide +kernel
  have hfound : s.indexOf (word 9 9) (-2) (some 4) = .ok 2 := by decide +kernel
  have hmissed : s.indexOf (word 9 9) 1 (some (-1)) = .error .absent := by decide +kernel
  have hplaces : s.withoutTrivia ≠ t.withoutTrivia := by decide +kernel
  obtain ⟨-, -, -, hsequence⟩ := sequence_reads_as_accepted requests
  obtain ⟨hcontent, hreads, hanswers⟩ := hsequence 0 s hmade
  exact ⟨⟨hmade, hagrees⟩, hcontent, (hreads.indexOf_eq_ok_iff ..).mp hfound,
    ((hreads.indexOf_eq_error_iff ..).mp hmissed).2,
    (hreads.contains_iff_indexOf _).mpr ⟨0, hfirst⟩, hanswers t hagrees, hplaces⟩

end Growth

end Tilde
