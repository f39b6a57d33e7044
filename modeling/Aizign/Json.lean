import Mathlib.Algebra.Order.Ring.Nat
import Mathlib.Data.List.Basic
import Mathlib.Tactic.Common

/-!
# JSON texts

A JSON text as it is spelled (RFC 8259): string characters with their escapes,
number tokens and all white space are kept, so that `Doc.text` gives back
exactly the characters that were read. `parse` is the recursive-descent reader
of that grammar.
-/

namespace Aizign

abbrev Text := List Char

instance (a : Text) (l : List Text) : Decidable (a ∈ l) := List.instDecidableMemOfLawfulBEq a l

def isWs (c : Char) : Bool := c == ' ' || c == '\t' || c == '\n' || c == '\r'

structure Ws where
  chars : Text
  ok : chars.all isWs = true

def Ws.nil : Ws := ⟨[], rfl⟩

def isHex (c : Char) : Bool :=
  c.isDigit || ('a' ≤ c && c ≤ 'f') || ('A' ≤ c && c ≤ 'F')

def isEscape (c : Char) : Bool :=
  c == '"' || c == '\\' || c == '/' || c == 'b' || c == 'f' || c == 'n' || c == 'r' || c == 't'

def isRaw (c : Char) : Bool := c != '"' && c != '\\' && decide (0x20 ≤ c.toNat)

/-- One character of a string token: itself, a two-character escape, or `\uXXXX`. -/
inductive StrChar
  | raw (c : Char) (ok : isRaw c = true)
  | esc (e : Char) (ok : isEscape e = true)
  | uni (a b c d : Char) (ok : (isHex a && isHex b && isHex c && isHex d) = true)

def StrChar.text : StrChar → Text
  | .raw c _ => [c]
  | .esc e _ => ['\\', e]
  | .uni a b c d _ => ['\\', 'u', a, b, c, d]

def bodyText (b : List StrChar) : Text := b.flatMap StrChar.text

def digits1 : Text → Option Text
  | [] => none
  | c :: r => if c.isDigit then some (r.dropWhile Char.isDigit) else none

def intPart : Text → Option Text
  | [] => none
  | c :: r => if c = '0' then some r else digits1 (c :: r)

def fracPart : Text → Option Text
  | '.' :: r => digits1 r
  | r => some r

def expPart : Text → Option Text
  | [] => some []
  | c :: r =>
    if c = 'e' ∨ c = 'E' then
      match r with
      | '+' :: r => digits1 r
      | '-' :: r => digits1 r
      | r => digits1 r
    else some (c :: r)

def dropMinus : Text → Text
  | '-' :: r => r
  | r => r

/-- The `number` production of RFC 8259. -/
def isNumber (t : Text) : Bool :=
  match intPart (dropMinus t) with
  | none => false
  | some r =>
    match fracPart r with
    | none => false
    | some r => expPart r == some []

structure Num where
  tok : Text
  ok : isNumber tok = true

mutual

/-- A JSON value as it is spelled. -/
inductive Cst
  | null
  | bool (b : Bool)
  | num (n : Num)
  | str (body : List StrChar)
  | arr0 (w : Ws)
  | arr (items : Items)
  | obj0 (w : Ws)
  | obj (members : Members)

/-- The elements of a non-empty array, up to and including `]`. -/
inductive Items
  | last (w₁ : Ws) (v : Cst) (w₂ : Ws)
  | more (w₁ : Ws) (v : Cst) (w₂ : Ws) (rest : Items)

/-- The members of a non-empty object, up to and including the closing brace. -/
inductive Members
  | last (w₁ : Ws) (name : List StrChar) (w₂ w₃ : Ws) (v : Cst) (w₄ : Ws)
  | more (w₁ : Ws) (name : List StrChar) (w₂ w₃ : Ws) (v : Cst) (w₄ : Ws) (rest : Members)

end

def strText (b : List StrChar) : Text := '"' :: (bodyText b ++ ['"'])

mutual

def Cst.text : Cst → Text
  | .null => ['n', 'u', 'l', 'l']
  | .bool b => if b then ['t', 'r', 'u', 'e'] else ['f', 'a', 'l', 's', 'e']
  | .num n => n.tok
  | .str b => strText b
  | .arr0 w => '[' :: (w.chars ++ [']'])
  | .arr es => '[' :: es.text
  | .obj0 w => '{' :: (w.chars ++ ['}'])
  | .obj ms => '{' :: ms.text

def Items.text : Items → Text
  | .last w₁ v w₂ => w₁.chars ++ (v.text ++ (w₂.chars ++ [']']))
  | .more w₁ v w₂ rest => w₁.chars ++ (v.text ++ (w₂.chars ++ ',' :: rest.text))

def Members.text : Members → Text
  | .last w₁ k w₂ w₃ v w₄ =>
    w₁.chars ++ (strText k ++ (w₂.chars ++ ':' :: (w₃.chars ++ (v.text ++ (w₄.chars ++ ['}'])))))
  | .more w₁ k w₂ w₃ v w₄ rest =>
    w₁.chars ++ (strText k ++ (w₂.chars ++ ':' :: (w₃.chars ++ (v.text ++ (w₄.chars ++ ',' :: rest.text)))))

end

/-- A whole JSON text: one value between white space. -/
structure Doc where
  lead : Ws
  value : Cst
  trail : Ws

def Doc.text (d : Doc) : Text := d.lead.chars ++ (d.value.text ++ d.trail.chars)

/-! ## Reading -/

def takeWs (t : Text) : Ws := ⟨t.takeWhile isWs, List.all_takeWhile⟩

def dropWs (t : Text) : Text := t.dropWhile isWs

/-- The rest of `t` after the word `w`. -/
def expect : Text → Text → Option Text
  | [], t => some t
  | _ :: _, [] => none
  | a :: w, b :: t => if a = b then expect w t else none

def parseBody : Text → Option (List StrChar × Text)
  | [] => none
  | '"' :: r => some ([], r)
  | '\\' :: 'u' :: a :: b :: c :: d :: r =>
    if h : (isHex a && isHex b && isHex c && isHex d) = true then
      (parseBody r).map fun p => (.uni a b c d h :: p.1, p.2)
    else none
  | '\\' :: e :: r =>
    if h : isEscape e = true then (parseBody r).map fun p => (.esc e h :: p.1, p.2) else none
  | c :: r =>
    if h : isRaw c = true then (parseBody r).map fun p => (.raw c h :: p.1, p.2) else none

def isNumChar (c : Char) : Bool :=
  c.isDigit || c == '-' || c == '+' || c == '.' || c == 'e' || c == 'E'

def parseNum (t : Text) : Option (Num × Text) :=
  if h : isNumber (t.takeWhile isNumChar) = true then some (⟨_, h⟩, t.dropWhile isNumChar) else none

mutual

def parseValue : Nat → Text → Option (Cst × Text)
  | 0, _ => none
  | _ + 1, [] => none
  | n + 1, c :: r =>
    if c = '{' then
      match dropWs r with
      | '}' :: r' => some (.obj0 (takeWs r), r')
      | _ => (parseMembers n r).map fun p => (.obj p.1, p.2)
    else if c = '[' then
      match dropWs r with
      | ']' :: r' => some (.arr0 (takeWs r), r')
      | _ => (parseItems n r).map fun p => (.arr p.1, p.2)
    else if c = '"' then (parseBody r).map fun p => (.str p.1, p.2)
    else if c = 't' then (expect ['r', 'u', 'e'] r).map fun r => (.bool true, r)
    else if c = 'f' then (expect ['a', 'l', 's', 'e'] r).map fun r => (.bool false, r)
    else if c = 'n' then (expect ['u', 'l', 'l'] r).map fun r => (.null, r)
    else (parseNum (c :: r)).map fun p => (.num p.1, p.2)

def parseItems : Nat → Text → Option (Items × Text)
  | 0, _ => none
  | n + 1, t =>
    match parseValue n (dropWs t) with
    | none => none
    | some (v, r) =>
      match dropWs r with
      | ']' :: r' => some (.last (takeWs t) v (takeWs r), r')
      | ',' :: r' => (parseItems n r').map fun p => (.more (takeWs t) v (takeWs r) p.1, p.2)
      | _ => none

def parseMembers : Nat → Text → Option (Members × Text)
  | 0, _ => none
  | n + 1, t =>
    match dropWs t with
    | '"' :: r₁ =>
      match parseBody r₁ with
      | none => none
      | some (k, r₂) =>
        match dropWs r₂ with
        | ':' :: r₃ =>
          match parseValue n (dropWs r₃) with
          | none => none
          | some (v, r₄) =>
            match dropWs r₄ with
            | '}' :: r₅ => some (.last (takeWs t) k (takeWs r₂) (takeWs r₃) v (takeWs r₄), r₅)
            | ',' :: r₅ =>
              (parseMembers n r₅).map fun p => (.more (takeWs t) k (takeWs r₂) (takeWs r₃) v (takeWs r₄) p.1, p.2)
            | _ => none
        | _ => none
    | _ => none

end

def parse (t : Text) : Option Doc :=
  match parseValue (t.length + 1) (dropWs t) with
  | none => none
  | some (v, r) => if h : r.all isWs = true then some ⟨takeWs t, v, ⟨r, h⟩⟩ else none

end Aizign
