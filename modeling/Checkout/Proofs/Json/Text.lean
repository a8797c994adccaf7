import Checkout.Proofs.Json.Token

/-!
# Reading values back

A proper value is read from its own text, nested to any depth: its text is cut into the tokens that
it has (`tokens_toChars`), and these build the draft that says what it says (`build_toTokens`). So
reading a text of a value comes down to reading its draft (`Draft.read_toChars`).
-/

namespace Checkout.Json

mutual

/-- All numbers in the value are written as numbers are. -/
def IsProper : Json → Prop
  | .number n => n.IsProper
  | .array items => ItemsProper items
  | .object members => MembersProper members
  | _ => True

/-- All items of an array are proper. -/
def ItemsProper : List Json → Prop
  | [] => True
  | j :: js => IsProper j ∧ ItemsProper js

/-- All members of an object are proper. -/
def MembersProper : List (String × Json) → Prop
  | [] => True
  | (_, j) :: ms => IsProper j ∧ MembersProper ms

end

mutual

/-- The tokens of a value. -/
def toTokens : Json → List Token
  | .null => [.null]
  | .bool b => [.bool b]
  | .number n => [.number n.asRead]
  | .string s => [.string (some s)]
  | .array items => .openArray :: itemsToTokens items ++ [.closeArray]
  | .object members => .openObject :: membersToTokens members ++ [.closeObject]

/-- The tokens of the items of an array. -/
def itemsToTokens : List Json → List Token
  | [] => []
  | [j] => toTokens j
  | j :: js => toTokens j ++ .comma :: itemsToTokens js

/-- The tokens of the members of an object. -/
def membersToTokens : List (String × Json) → List Token
  | [] => []
  | [(k, j)] => .string (some k) :: .colon :: toTokens j
  | (k, j) :: ms => .string (some k) :: .colon :: toTokens j ++ .comma :: membersToTokens ms

end

mutual

/-- What a text of the value says. -/
def draft : Json → Draft
  | .null => .null
  | .bool b => .bool b
  | .number n => .number n.asRead
  | .string s => .string (some s)
  | .array items => .array (itemDrafts items) true
  | .object members => .object (memberDrafts members) true

/-- What a text of the items of an array says. -/
def itemDrafts : List Json → List Draft
  | [] => []
  | j :: js => draft j :: itemDrafts js

/-- What a text of the members of an object says. -/
def memberDrafts : List (String × Json) → List (Option String × Draft)
  | [] => []
  | (k, j) :: ms => (some k, draft j) :: memberDrafts ms

end

/-! ## Tokens -/

namespace Token

theorem ends_comma (rest : List Symbol) : Ends (some ',' :: rest) := by
  intro s hs
  cases hs
  exact .inl rfl

theorem ends_closeArray (rest : List Symbol) : Ends (some ']' :: rest) := by
  intro s hs
  cases hs
  exact .inr (.inl rfl)

theorem ends_closeObject (rest : List Symbol) : Ends (some '\x7d' :: rest) := by
  intro s hs
  cases hs
  exact .inr (.inr rfl)

/-- The text, with anything behind it that ends a number, is cut into these tokens first. -/
def Spells (cs : List Char) (ts : List Token) : Prop :=
  ∀ read rest, Ends rest →
    tokensFrom read (cs.map some ++ rest) = tokensFrom (ts.reverse ++ read) rest

/-- Two texts with a comma between them. -/
theorem Spells.comma {cs cs' : List Char} {ts ts' : List Token} (h : Spells cs ts)
    (h' : Spells cs' ts') : Spells (cs ++ ',' :: cs') (ts ++ .comma :: ts') := by
  intro read rest hrest
  have hcomma : tokensFrom (ts.reverse ++ read) (some ',' :: (cs'.map some ++ rest)) =
      tokensFrom (.comma :: (ts.reverse ++ read)) (cs'.map some ++ rest) :=
    tokensFrom_cons _ rfl rfl
  rw [List.map_append, List.map_cons, List.append_assoc, List.cons_append,
    h read _ (ends_comma _), hcomma, h' _ rest hrest]
  simp

/-- A text between brackets. -/
theorem Spells.enclosed {opening closing : Char} {first last : Token} {cs : List Char}
    {ts : List Token} (h : Spells cs ts) (hspace : isSpace (some opening) = false)
    (hspace' : isSpace (some closing) = false)
    (hopen : ∀ rest, token (some opening) rest = some (first, rest))
    (hclose : ∀ rest, token (some closing) rest = some (last, rest))
    (hends : ∀ rest, Ends (some closing :: rest)) :
    Spells (opening :: cs ++ [closing]) (first :: ts ++ [last]) := by
  intro read rest hrest
  have htext : (opening :: cs ++ [closing]).map some ++ rest =
      some opening :: (cs.map some ++ some closing :: rest) := by simp
  rw [htext, tokensFrom_cons read hspace (hopen _), h _ _ (hends rest),
    tokensFrom_cons _ hspace' (hclose _)]
  simp

/-- A text behind its key. -/
theorem Spells.member (key : String) {cs : List Char} {ts : List Token} (h : Spells cs ts) :
    Spells (quoted key ++ ':' :: cs) (.string (some key) :: .colon :: ts) := by
  intro read rest hrest
  have hcolon : tokensFrom (.string (some key) :: read) (some ':' :: (cs.map some ++ rest)) =
      tokensFrom (.colon :: .string (some key) :: read) (cs.map some ++ rest) :=
    tokensFrom_cons _ rfl rfl
  rw [List.map_append, List.map_cons, List.append_assoc, List.cons_append, tokensFrom_quoted,
    hcolon, h _ rest hrest]
  simp

end Token

open Token

mutual

/-- **The text of a value is cut into its tokens.** -/
theorem spells_toChars : ∀ {j : Json}, j.IsProper → Spells j.toChars j.toTokens
  | .null, _ => fun read rest _ => tokensFrom_cons read rfl (by rfl)
  | .bool true, _ => fun read rest _ => tokensFrom_cons read rfl (by rfl)
  | .bool false, _ => fun read rest _ => tokensFrom_cons read rfl (by rfl)
  | .number n, h => fun read rest hrest => tokensFrom_number h read hrest
  | .string s, _ => fun read rest _ => tokensFrom_quoted s read rest
  | .array items, h => (spells_itemsToChars h).enclosed rfl rfl (fun _ => rfl) (fun _ => rfl)
      ends_closeArray
  | .object members, h => (spells_membersToChars h).enclosed rfl rfl (fun _ => rfl) (fun _ => rfl)
      ends_closeObject

theorem spells_itemsToChars : ∀ {items : List Json}, ItemsProper items →
    Spells (itemsToChars items) (itemsToTokens items)
  | [], _ => fun _ _ _ => rfl
  | [_], h => spells_toChars h.1
  | _ :: _ :: _, h => (spells_toChars h.1).comma (spells_itemsToChars h.2)

theorem spells_membersToChars : ∀ {members : List (String × Json)}, MembersProper members →
    Spells (membersToChars members) (membersToTokens members)
  | [], _ => fun _ _ _ => rfl
  | [(k, _)], h => (spells_toChars h.1).member k
  | (k, _) :: _ :: _, h => ((spells_toChars h.1).member k).comma (spells_membersToChars h.2)

end

/-- **A text is nothing but the tokens of its value.** -/
theorem tokens_toChars {j : Json} (h : j.IsProper) : tokens (j.toChars.map some) = j.toTokens := by
  have hall := spells_toChars h [] [] (fun s hs => nomatch hs)
  rw [List.append_nil, List.append_nil, tokensFrom_nil, List.reverse_reverse] at hall
  exact hall

/-! ## Drafts -/

namespace Draft

/-- Where building goes on once a value is complete. -/
def goOn (value : Draft) (frames : List Frame) (ts : List Token) : Draft × List Token :=
  match frames with
  | [] => (value, ts)
  | f :: fs => build .commaOrClose (f.push value :: fs) ts

theorem build_complete {e : Expectation} {t : Token} {frames fs : List Frame} {value : Draft}
    (h : Step.of e t frames = .complete value fs) (ts : List Token) :
    build e frames (t :: ts) = goOn value fs ts := by
  unfold build
  rw [h]
  cases fs <;> rfl

theorem build_next {e e' : Expectation} {t : Token} {frames frames' : List Frame}
    (h : Step.of e t frames = .next e' frames') (ts : List Token) :
    build e frames (t :: ts) = build e' frames' ts := by
  rw [build, h]

/-- Where an array may be closed, a value may begin as well. -/
theorem build_valueOrClose (j : Json) (frames : List Frame) (ts : List Token) :
    build .valueOrClose frames (j.toTokens ++ ts) = build .value frames (j.toTokens ++ ts) := by
  cases j <;> rfl

/-- A comma follows an item, and another item is expected. -/
theorem goOn_item (d : Draft) (read : List Draft) (frames : List Frame) (ts : List Token) :
    goOn d (.array read :: frames) (.comma :: ts) =
      build .value (.array (d :: read) :: frames) ts := by
  show build .commaOrClose (.array (d :: read) :: frames) _ = _
  exact build_next rfl ts

/-- A comma follows a member, and another key is expected. -/
theorem goOn_member (d : Draft) (read : List (Option String × Draft)) (key : String)
    (frames : List Frame) (ts : List Token) :
    goOn d (.member read (some key) :: frames) (.comma :: ts) =
      build .key (.object ((some key, d) :: read) :: frames) ts := by
  show build .commaOrClose (.object ((some key, d) :: read) :: frames) _ = _
  exact build_next rfl ts

/-- Behind a key and a colon comes a value. -/
theorem build_key (read : List (Option String × Draft)) (key : String) (frames : List Frame)
    (ts : List Token) :
    build .key (.object read :: frames) (.string (some key) :: .colon :: ts) =
      build .value (.member read (some key) :: frames) ts :=
  (build_next rfl _).trans (build_next rfl ts)

/-- Where an object may be closed, a key may come as well. -/
theorem build_keyOrClose {members : List (String × Json)} (h : members ≠ [])
    (read : List (Option String × Draft)) (frames : List Frame) (ts : List Token) :
    build .keyOrClose (.object read :: frames) (membersToTokens members ++ ts) =
      build .key (.object read :: frames) (membersToTokens members ++ ts) := by
  match members with
  | [] => exact absurd rfl h
  | [_] => rfl
  | _ :: _ :: _ => rfl

mutual

/-- **The tokens of a value build its draft**, inside any open containers. -/
theorem build_toTokens : ∀ (j : Json) (frames : List Frame) (ts : List Token),
    build .value frames (j.toTokens ++ ts) = goOn j.draft frames ts
  | .null, _, ts => build_complete rfl ts
  | .bool _, _, ts => build_complete rfl ts
  | .number _, _, ts => build_complete rfl ts
  | .string _, _, ts => build_complete rfl ts
  | .array [], _, ts => (build_next rfl _).trans (build_complete rfl ts)
  | .array (j :: js), frames, ts => by
      have hitems := build_itemsToTokens (j :: js) (List.cons_ne_nil j js) [] frames ts
      have hopen : build .value frames ((Json.array (j :: js)).toTokens ++ ts) =
          build .valueOrClose (.array [] :: frames)
            (itemsToTokens (j :: js) ++ [.closeArray] ++ ts) := build_next rfl _
      rw [hopen, List.append_assoc, List.singleton_append]
      refine Eq.trans ?_ hitems
      cases js with
      | nil => exact build_valueOrClose j _ _
      | cons j' js =>
          show build _ _ ((j.toTokens ++ _) ++ _) = build _ _ ((j.toTokens ++ _) ++ _)
          rw [List.append_assoc]
          exact build_valueOrClose j _ _
  | .object [], _, ts => (build_next rfl _).trans (build_complete rfl ts)
  | .object (m :: ms), frames, ts => by
      have hmembers := build_membersToTokens (m :: ms) (List.cons_ne_nil m ms) [] frames ts
      have hopen : build .value frames ((Json.object (m :: ms)).toTokens ++ ts) =
          build .keyOrClose (.object [] :: frames)
            (membersToTokens (m :: ms) ++ [.closeObject] ++ ts) := build_next rfl _
      rw [hopen, List.append_assoc, List.singleton_append,
        build_keyOrClose (List.cons_ne_nil m ms)]
      exact hmembers

theorem build_itemsToTokens : ∀ (items : List Json), items ≠ [] →
    ∀ (read : List Draft) (frames : List Frame) (ts : List Token),
      build .value (.array read :: frames) (itemsToTokens items ++ .closeArray :: ts) =
        goOn (.array (read.reverse ++ itemDrafts items) true) frames ts
  | [], h, _, _, _ => absurd rfl h
  | [j], _, read, frames, ts => by
      have hvalue := build_toTokens j (.array read :: frames) (.closeArray :: ts)
      refine hvalue.trans ((build_complete rfl ts).trans ?_)
      rw [List.reverse_cons]
      rfl
  | j :: j' :: js, _, read, frames, ts => by
      have hrest := build_itemsToTokens (j' :: js) (List.cons_ne_nil j' js) (j.draft :: read)
        frames ts
      rw [List.reverse_cons, List.append_assoc] at hrest
      show build _ _ ((j.toTokens ++ .comma :: itemsToTokens (j' :: js)) ++ _) = _
      rw [List.append_assoc, build_toTokens j, List.cons_append, goOn_item]
      exact hrest

theorem build_membersToTokens : ∀ (members : List (String × Json)), members ≠ [] →
    ∀ (read : List (Option String × Draft)) (frames : List Frame) (ts : List Token),
      build .key (.object read :: frames) (membersToTokens members ++ .closeObject :: ts) =
        goOn (.object (read.reverse ++ memberDrafts members) true) frames ts
  | [], h, _, _, _ => absurd rfl h
  | [(k, j)], _, read, frames, ts => by
      show build _ _ (.string (some k) :: .colon :: (j.toTokens ++ .closeObject :: ts)) = _
      rw [build_key, build_toTokens j]
      refine (build_complete rfl ts).trans ?_
      rw [List.reverse_cons]
      rfl
  | (k, j) :: m :: ms, _, read, frames, ts => by
      have hrest := build_membersToTokens (m :: ms) (List.cons_ne_nil m ms)
        ((some k, j.draft) :: read) frames ts
      rw [List.reverse_cons, List.append_assoc] at hrest
      show build _ _ (.string (some k) :: .colon ::
        ((j.toTokens ++ .comma :: membersToTokens (m :: ms)) ++ .closeObject :: ts)) = _
      rw [build_key, List.append_assoc, build_toTokens j, List.cons_append, goOn_member]
      exact hrest

end

/-- **A value is read from its own text**, and nothing is left of the text. -/
theorem read_toChars {j : Json} (h : j.IsProper) : read (j.toChars.map some) = (j.draft, true) := by
  have hbuild := build_toTokens j [] []
  rw [List.append_nil] at hbuild
  unfold read
  rw [tokens_toChars h, hbuild]
  rfl

theorem read_toString {j : Json} (h : j.IsProper) :
    read (j.toString.toList.map some) = (j.draft, true) := by
  unfold Json.toString
  rw [String.toList_ofList, read_toChars h]

/-- What a value says is not broken. -/
theorem isIntact_draft (j : Json) : j.draft.isIntact = true := by
  cases j <;> rfl

end Draft

end Checkout.Json
