import Tilde.Token.Sequence

/-!
How sequences grow. Sequences are made of lists of items, and items are added to those
that have been made, in any order. A request that brings an item that is not a token is
refused and changes nothing, and every other request is accepted. So a sequence holds at
any time the tokens that were accepted for it, in the order in which they were, and they
stay where they are whatever is asked for later.
-/

namespace Tilde

namespace TokenSeq

def Item.token? : Item → Option Token
  | .token t => some t
  | .other _ => none

theorem filterMap_token? (tokens : List Token) :
    (tokens.map Item.token).filterMap Item.token? = tokens := by
  rw [List.filterMap_map]
  exact List.filterMap_some

/-- A list of items has tokens only, or it has a first item that is none. -/
theorem tokens_or_other (items : List Item) :
    (∃ tokens : List Token, items = tokens.map .token) ∨
      ∃ (tokens : List Token) (type : String) (rest : List Item),
        items = tokens.map .token ++ .other type :: rest := by
  induction items with
  | nil => exact .inl ⟨[], rfl⟩
  | cons item items ih =>
      cases item with
      | other type => exact .inr ⟨[], type, items, rfl⟩
      | token token =>
          rcases ih with ⟨tokens, rfl⟩ | ⟨tokens, type, rest, rfl⟩
          · exact .inl ⟨token :: tokens, rfl⟩
          · exact .inr ⟨token :: tokens, type, rest, rfl⟩

theorem offerAll_tokens (s : TokenSeq) (tokens : List Token) :
    s.offerAll (tokens.map .token) = .ok (s.append (.ofList tokens)) := by
  induction tokens generalizing s with
  | nil => simp [offerAll, append, ofList, pure, Except.pure]
  | cons token tokens ih =>
      calc s.offerAll ((token :: tokens).map .token)
          = (s.push token).offerAll (tokens.map .token) := rfl
        _ = .ok ((s.push token).append (.ofList tokens)) := ih _
        _ = .ok (s.append (.ofList (token :: tokens))) :=
            congrArg Except.ok (toList_inj.mp (by simp))

/-- The first item that is not a token is the one that is refused. -/
theorem offerAll_other (s : TokenSeq) (tokens : List Token) (type : String)
    (rest : List Item) :
    s.offerAll (tokens.map .token ++ .other type :: rest) = .error (.notToken type) := by
  induction tokens generalizing s with
  | nil => rfl
  | cons token tokens ih => exact ih (s.push token)

end TokenSeq

namespace Growth

open TokenSeq

inductive Request where
  /-- A new sequence of the items of a list. -/
  | make (items : List Item)
  /-- One more item for a sequence. Sequences are numbered from zero as they are made. -/
  | add (k : Nat) (item : Item)
  deriving DecidableEq, Repr

/-- The items that a request brings. -/
def Request.items : Request → List Item
  | .make items => items
  | .add _ item => [item]

inductive Answer where
  /-- The number of the new sequence. -/
  | made (k : Nat)
  | added
  | refused (fault : SequenceFault)
  /-- No sequence of that number has been made. -/
  | unknown
  deriving DecidableEq, Repr

def respond (made : List TokenSeq) : Request → List TokenSeq × Answer
  | .make items =>
      match TokenSeq.empty.offerAll items with
      | .ok s => (made ++ [s], .made made.length)
      | .error fault => (made, .refused fault)
  | .add k item =>
      match made[k]? with
      | none => (made, .unknown)
      | some s =>
          match s.offer item with
          | .ok grown => (made.set k grown, .added)
          | .error fault => (made, .refused fault)

/-- The sequences that have been made, and the requests with their answers. -/
structure History where
  made : List TokenSeq := []
  log : List (Request × Answer) := []
  deriving DecidableEq, Repr

def History.ask (h : History) (request : Request) : History :=
  let (made, answer) := respond h.made request
  ⟨made, h.log ++ [(request, answer)]⟩

def History.askAll (h : History) (requests : List Request) : History :=
  requests.foldl ask h

/-- The tokens of a sequence, of which there are none until it is made. -/
def content (made : List TokenSeq) (k : Nat) : List Token :=
  (made[k]?.getD .empty).toList

/-- The sequence for which the items of a request were accepted. -/
def receiver : Request × Answer → Option Nat
  | (.make _, .made k) => some k
  | (.add k _, .added) => some k
  | _ => none

/-- The tokens that a sequence was given by a request. -/
def gain (k : Nat) (entry : Request × Answer) : List Token :=
  if receiver entry = some k then entry.1.items.filterMap Item.token? else []

/-! ### One request -/

/-- How a request is settled: it is accepted if it brings tokens only, and if not, it is
refused on account of the first item that is none, and nothing is changed. -/
inductive Settled (made : List TokenSeq) : Request → List TokenSeq × Answer → Prop
  | made (tokens : List Token) :
      Settled made (.make (tokens.map .token)) (made ++ [.ofList tokens], .made made.length)
  | unmade (tokens : List Token) (type : String) (rest : List Item) :
      Settled made (.make (tokens.map .token ++ .other type :: rest))
        (made, .refused (.notToken type))
  | added {k : Nat} {s : TokenSeq} (hs : made[k]? = some s) (token : Token) :
      Settled made (.add k (.token token)) (made.set k (s.push token), .added)
  | refused {k : Nat} {s : TokenSeq} (hs : made[k]? = some s) (type : String) :
      Settled made (.add k (.other type)) (made, .refused (.notToken type))
  | unknown {k : Nat} (hk : made[k]? = none) (item : Item) :
      Settled made (.add k item) (made, .unknown)

theorem settled (made : List TokenSeq) (request : Request) :
    Settled made request (respond made request) := by
  cases request with
  | make items =>
      rcases tokens_or_other items with ⟨tokens, rfl⟩ | ⟨tokens, type, rest, rfl⟩
      · have hempty : TokenSeq.empty.append (.ofList tokens) = .ofList tokens :=
          toList_inj.mp (by simp)
        simp only [respond, offerAll_tokens, hempty]
        exact .made tokens
      · simp only [respond, offerAll_other]
        exact .unmade tokens type rest
  | add k item =>
      cases hs : made[k]? with
      | none =>
          simp only [respond, hs]
          exact .unknown hs item
      | some s =>
          cases item with
          | token token =>
              simp only [respond, hs, offer]
              exact .added hs token
          | other type =>
              simp only [respond, hs, offer]
              exact .refused hs type

theorem content_eq_toList {made : List TokenSeq} {k : Nat} {s : TokenSeq}
    (hs : made[k]? = some s) : content made k = s.toList := by
  rw [content, hs, Option.getD_some]

theorem content_eq_nil {made : List TokenSeq} {k : Nat} (hk : made.length ≤ k) :
    content made k = [] := by
  rw [content, List.getElem?_eq_none hk]
  rfl

/-- Making a sequence gives its tokens to the next number and leaves the other ones. -/
theorem content_append_singleton (made : List TokenSeq) (s : TokenSeq) (k : Nat) :
    content (made ++ [s]) k =
      content made k ++ if made.length = k then s.toList else [] := by
  rcases Nat.lt_trichotomy k made.length with hlt | rfl | hgt
  · simp [content, List.getElem?_append_left hlt, Nat.ne_of_gt hlt]
  · simp [content]
  · have hout : (made ++ [s]).length ≤ k := by
      rw [List.length_append, List.length_singleton]
      exact hgt
    simp [content_eq_nil hout, content_eq_nil (Nat.le_of_lt hgt), Nat.ne_of_lt hgt]

/-- A token is added at the end of its sequence and to no other one. -/
theorem content_set_push {made : List TokenSeq} {j : Nat} {s : TokenSeq}
    (hs : made[j]? = some s) (token : Token) (k : Nat) :
    content (made.set j (s.push token)) k =
      content made k ++ if j = k then [token] else [] := by
  by_cases hjk : j = k
  · subst hjk
    have hj : j < made.length := (List.getElem?_eq_some_iff.mp hs).1
    have hset : (made.set j (s.push token))[j]? = some (s.push token) :=
      List.getElem?_set_self hj
    rw [content_eq_toList hset, content_eq_toList hs, if_pos rfl, toList_push]
  · rw [content, List.getElem?_set_ne hjk, if_neg hjk, List.append_nil, content]

/-- A sequence has after a request what it had before and then what it gained. -/
theorem Settled.content_eq {made made' : List TokenSeq} {request : Request}
    {answer : Answer} (h : Settled made request (made', answer)) (k : Nat) :
    content made' k = content made k ++ gain k (request, answer) := by
  cases h with
  | made tokens =>
      rw [content_append_singleton]
      simp only [gain, receiver, Request.items, Option.some.injEq, filterMap_token?,
        toList_ofList]
  | added hs token =>
      rw [content_set_push hs]
      simp [gain, receiver, Request.items, Item.token?]
  | unmade => simp [gain, receiver]
  | refused => simp [gain, receiver]
  | unknown => simp [gain, receiver]

/-! ### All requests -/

namespace History

theorem content_ask (h : History) (request : Request) (k : Nat) :
    content (h.ask request).made k =
      content h.made k ++ gain k (request, (respond h.made request).2) :=
  (settled h.made request).content_eq k

/-- The tokens of a sequence at one time are the first ones that it has later. -/
theorem content_prefix_askAll (h : History) (requests : List Request) (k : Nat) :
    content h.made k <+: content (h.askAll requests).made k := by
  induction requests generalizing h with
  | nil => exact List.prefix_rfl
  | cons request requests ih =>
      have hfirst : content h.made k <+: content (h.ask request).made k := by
        rw [content_ask]
        exact List.prefix_append ..
      exact hfirst.trans (ih (h.ask request))

/-- Every request is entered in the log, whatever its answer is. -/
theorem requests_askAll (h : History) (requests : List Request) :
    (h.askAll requests).log.map Prod.fst = h.log.map Prod.fst ++ requests := by
  induction requests generalizing h with
  | nil => simp [askAll]
  | cons request requests ih =>
      calc (h.askAll (request :: requests)).log.map Prod.fst
          = (h.ask request).log.map Prod.fst ++ requests := ih (h.ask request)
        _ = h.log.map Prod.fst ++ request :: requests := by simp [ask]

/-- What the sequences hold is what they gained by the requests of the log. -/
def Recorded (h : History) : Prop :=
  ∀ k, content h.made k = h.log.flatMap (gain k)

theorem Recorded.ask {h : History} (hrecorded : h.Recorded) (request : Request) :
    (h.ask request).Recorded := by
  intro k
  rw [content_ask, hrecorded k]
  simp [History.ask]

theorem Recorded.askAll {h : History} (hrecorded : h.Recorded) (requests : List Request) :
    (h.askAll requests).Recorded := by
  induction requests generalizing h with
  | nil => exact hrecorded
  | cons request requests ih => exact ih (hrecorded.ask request)

theorem recorded_empty : Recorded {} :=
  fun _ => content_eq_nil (Nat.zero_le _)

end History

end Growth

end Tilde
