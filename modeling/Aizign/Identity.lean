import Aizign.Serde

/-!
# Identities, digests and bounded timestamps

Every type is validated on construction: the check that the constructor makes
is a field of the structure.
-/

namespace Aizign

inductive IdentityError
  | empty
  | tooLong (max actual : Nat)
  | invalidCharacter (index : Nat)
  | digestLength (expected actual : Nat)
  | timestampOutOfRange
  deriving DecidableEq

def IdentityError.text : IdentityError → Text
  | .empty => "value must not be empty".toList
  | .tooLong max actual =>
    "value is ".toList ++ decimal actual ++ " bytes long; at most ".toList ++ decimal max ++ " allowed".toList
  | .invalidCharacter i => "character at byte ".toList ++ decimal i ++ " is not allowed".toList
  | .digestLength e a =>
    "digest has ".toList ++ decimal a ++ " hexadecimal characters; expected ".toList ++ decimal e
  | .timestampOutOfRange => "timestamp is outside the bounded range".toList

def isAsciiDigit (b : UInt8) : Bool := decide (0x30 ≤ b.toNat) && decide (b.toNat ≤ 0x39)
def isAsciiUpper (b : UInt8) : Bool := decide (0x41 ≤ b.toNat) && decide (b.toNat ≤ 0x5a)
def isAsciiLower (b : UInt8) : Bool := decide (0x61 ≤ b.toNat) && decide (b.toNat ≤ 0x7a)
def isAsciiAlphanumeric (b : UInt8) : Bool := isAsciiDigit b || isAsciiUpper b || isAsciiLower b

/-- The index of the first byte that `allowed` refuses at its position. -/
def firstRefused (allowed : Nat → UInt8 → Bool) : Nat → Bytes → Option Nat
  | _, [] => none
  | i, b :: bs => if allowed i b then firstRefused allowed (i + 1) bs else some i

/-- `.`, `_`, `:` and `-` after the first byte, alphanumerics anywhere. -/
def identifierByte (i : Nat) (b : UInt8) : Bool :=
  isAsciiAlphanumeric b || (decide (0 < i) && (b == 0x2e || b == 0x5f || b == 0x3a || b == 0x2d))

def shortErrorCodeByte (i : Nat) (b : UInt8) : Bool :=
  isAsciiUpper b || (decide (0 < i) && (isAsciiDigit b || b == 0x5f))

def hexByte (_ : Nat) (b : UInt8) : Bool := isAsciiDigit b || (decide (0x61 ≤ b.toNat) && decide (b.toNat ≤ 0x66))

/-- The check shared by the identifiers and the short error code. -/
def validateBytes (allowed : Nat → UInt8 → Bool) (max : Nat) (value : Text) : Except IdentityError Unit :=
  let bytes := utf8 value
  if value.isEmpty then .error .empty
  else if max < bytes.length then .error (.tooLong max bytes.length)
  else match firstRefused allowed 0 bytes with
    | some i => .error (.invalidCharacter i)
    | none => .ok ()

def validateIdentifier (value : Text) (max : Nat) : Except IdentityError Unit := validateBytes identifierByte max value

def identifierMaxLen : Nat := 128
def artifactRefMaxLen : Nat := 256
def shortErrorCodeMaxLen : Nat := 64

structure Identifier (max : Nat) where
  value : Text
  ok : validateIdentifier value max = .ok ()
  deriving DecidableEq

def Identifier.new (max : Nat) (value : Text) : Except IdentityError (Identifier max) :=
  match h : validateIdentifier value max with
  | .ok () => .ok ⟨value, h⟩
  | .error e => .error e

instance (max : Nat) : Ord (Identifier max) := ⟨fun a b => compare a.value b.value⟩

abbrev WorkflowId := Identifier identifierMaxLen
abbrev AssignmentId := Identifier identifierMaxLen
abbrev AttemptId := Identifier identifierMaxLen
abbrev ArtifactRevision := Identifier identifierMaxLen
abbrev EventId := Identifier identifierMaxLen
abbrev ArtifactRef := Identifier artifactRefMaxLen

def WorkflowId.new := Identifier.new identifierMaxLen
def AssignmentId.new := Identifier.new identifierMaxLen
def AttemptId.new := Identifier.new identifierMaxLen
def ArtifactRevision.new := Identifier.new identifierMaxLen
def EventId.new := Identifier.new identifierMaxLen
def ArtifactRef.new := Identifier.new artifactRefMaxLen

def validateShortErrorCode (value : Text) : Except IdentityError Unit :=
  validateBytes shortErrorCodeByte shortErrorCodeMaxLen value

structure ShortErrorCode where
  value : Text
  ok : validateShortErrorCode value = .ok ()
  deriving DecidableEq

def ShortErrorCode.new (value : Text) : Except IdentityError ShortErrorCode :=
  match h : validateShortErrorCode value with
  | .ok () => .ok ⟨value, h⟩
  | .error e => .error e

inductive DigestAlgorithm
  | sha256
  deriving DecidableEq

def DigestAlgorithm.hexLen : DigestAlgorithm → Nat
  | .sha256 => 64

def validateDigest (algorithm : DigestAlgorithm) (hex : Text) : Except IdentityError Unit :=
  let bytes := utf8 hex
  if bytes.length ≠ algorithm.hexLen then .error (.digestLength algorithm.hexLen bytes.length)
  else match firstRefused hexByte 0 bytes with
    | some i => .error (.invalidCharacter i)
    | none => .ok ()

structure Digest where
  algorithm : DigestAlgorithm
  hex : Text
  ok : validateDigest algorithm hex = .ok ()
  deriving DecidableEq

def Digest.new (algorithm : DigestAlgorithm) (hex : Text) : Except IdentityError Digest :=
  match h : validateDigest algorithm hex with
  | .ok () => .ok ⟨algorithm, hex, h⟩
  | .error e => .error e

def Digest.text (d : Digest) : Text := "sha256:".toList ++ d.hex

def minUnixSeconds : Nat := 1577836800
def maxUnixSeconds : Nat := 4102444800

structure BoundedTimestamp where
  unixSeconds : Nat
  min : minUnixSeconds ≤ unixSeconds
  max : unixSeconds ≤ maxUnixSeconds
  deriving DecidableEq

def BoundedTimestamp.fromUnixSeconds (seconds : Nat) : Except IdentityError BoundedTimestamp :=
  if h : minUnixSeconds ≤ seconds ∧ seconds ≤ maxUnixSeconds then .ok ⟨seconds, h.1, h.2⟩
  else .error .timestampOutOfRange

/-! ## What the validators let through -/

theorem firstRefused_eq_none {allowed : Nat → UInt8 → Bool} {bs : Bytes} :
    ∀ {i : Nat}, firstRefused allowed i bs = none ↔ ∀ (k : Nat) (h : k < bs.length), allowed (i + k) bs[k] = true := by
  induction bs with
  | nil => simp [firstRefused]
  | cons b bs ih =>
    intro i
    simp only [firstRefused]
    by_cases hb : allowed i b = true
    · simp only [hb, ite_true, ih]
      constructor
      · intro h k hk
        cases k with
        | zero => simpa using hb
        | succ k =>
          have := h k (by simpa using hk)
          simpa [Nat.add_assoc, Nat.add_comm 1 k] using this
      · intro h k hk
        have := h (k + 1) (by simpa using hk)
        simpa [Nat.add_assoc, Nat.add_comm 1 k] using this
    · simp only [hb]
      constructor
      · intro h; cases h
      · intro h
        exact absurd (h 0 (by simp)) (by simpa using hb)

theorem validateBytes_eq_ok {allowed : Nat → UInt8 → Bool} {max : Nat} {value : Text} :
    validateBytes allowed max value = .ok () ↔
      value ≠ [] ∧ (utf8 value).length ≤ max ∧ firstRefused allowed 0 (utf8 value) = none := by
  unfold validateBytes
  simp only
  split
  · rename_i h; simp_all
  · rename_i h
    split
    · rename_i h'; constructor
      · intro e; cases e
      · rintro ⟨-, hl, -⟩; omega
    · rename_i h'
      split
      · rename_i i hi; simp [hi]
      · rename_i hi; simp_all

theorem Identifier.new_eq_ok {max : Nat} {value : Text} {x : Identifier max} :
    Identifier.new max value = .ok x ↔ x.value = value := by
  unfold Identifier.new
  constructor
  · intro h
    split at h
    · simp only [Except.ok.injEq] at h; rw [← h]
    · cases h
  · rintro rfl
    split
    · rfl
    · rename_i e he; rw [x.ok] at he; cases he

theorem ShortErrorCode.new_eq_ok {value : Text} {x : ShortErrorCode} :
    ShortErrorCode.new value = .ok x ↔ x.value = value := by
  unfold ShortErrorCode.new
  constructor
  · intro h
    split at h
    · simp only [Except.ok.injEq] at h; rw [← h]
    · cases h
  · rintro rfl
    split
    · rfl
    · rename_i e he; rw [x.ok] at he; cases he

theorem Digest.new_eq_ok {a : DigestAlgorithm} {hex : Text} {x : Digest} :
    Digest.new a hex = .ok x ↔ x.algorithm = a ∧ x.hex = hex := by
  unfold Digest.new
  constructor
  · intro h
    split at h
    · simp only [Except.ok.injEq] at h; rw [← h]; exact ⟨rfl, rfl⟩
    · cases h
  · rintro ⟨rfl, rfl⟩
    split
    · rfl
    · rename_i e he; rw [x.ok] at he; cases he

theorem BoundedTimestamp.fromUnixSeconds_eq_ok {n : Nat} {t : BoundedTimestamp} :
    BoundedTimestamp.fromUnixSeconds n = .ok t ↔ t.unixSeconds = n := by
  unfold BoundedTimestamp.fromUnixSeconds
  constructor
  · intro h
    split at h
    · simp only [Except.ok.injEq] at h; rw [← h]
    · cases h
  · rintro rfl; rw [dif_pos ⟨t.min, t.max⟩]

/-! ## The characters that occur in validated texts -/

/-- Printable ASCII without quotes and backslashes: written to JSON as it is. -/
def isPlain (c : Char) : Bool := isRaw c && decide (c.toNat < 0x7f)

theorem isPlain_of_toNat {c : Char} (h : 0x20 ≤ c.toNat ∧ c.toNat < 0x7f ∧ c.toNat ≠ 0x22 ∧ c.toNat ≠ 0x5c) :
    isPlain c = true := by
  have hq : c ≠ '"' := by intro he; subst he; exact h.2.2.1 rfl
  have hb : c ≠ '\\' := by intro he; subst he; exact h.2.2.2 rfl
  simp [isPlain, isRaw, hq, hb, h.1, h.2.1]

/-- A byte that a validator lets through stands for itself in a JSON string. -/
def PlainByte (b : UInt8) : Prop := 0x20 ≤ b.toNat ∧ b.toNat < 0x7f ∧ b.toNat ≠ 0x22 ∧ b.toNat ≠ 0x5c

theorem plainByte_of_digit {b : UInt8} (h : isAsciiDigit b = true) : PlainByte b := by
  simp only [isAsciiDigit, Bool.and_eq_true, decide_eq_true_eq] at h
  unfold PlainByte; omega

theorem plainByte_of_upper {b : UInt8} (h : isAsciiUpper b = true) : PlainByte b := by
  simp only [isAsciiUpper, Bool.and_eq_true, decide_eq_true_eq] at h
  unfold PlainByte; omega

theorem plainByte_of_lower {b : UInt8} (h : isAsciiLower b = true) : PlainByte b := by
  simp only [isAsciiLower, Bool.and_eq_true, decide_eq_true_eq] at h
  unfold PlainByte; omega

theorem plainByte_of_identifierByte {i : Nat} {b : UInt8} (h : identifierByte i b = true) : PlainByte b := by
  simp only [identifierByte, isAsciiAlphanumeric, Bool.or_eq_true, Bool.and_eq_true, beq_iff_eq] at h
  rcases h with ((h | h) | h) | ⟨-, ((rfl | rfl) | rfl) | rfl⟩
  · exact plainByte_of_digit h
  · exact plainByte_of_upper h
  · exact plainByte_of_lower h
  all_goals unfold PlainByte; decide

theorem plainByte_of_shortErrorCodeByte {i : Nat} {b : UInt8} (h : shortErrorCodeByte i b = true) : PlainByte b := by
  simp only [shortErrorCodeByte, Bool.or_eq_true, Bool.and_eq_true, beq_iff_eq] at h
  rcases h with h | ⟨-, h | rfl⟩
  · exact plainByte_of_upper h
  · exact plainByte_of_digit h
  · unfold PlainByte; decide

theorem plainByte_of_hexByte {i : Nat} {b : UInt8} (h : hexByte i b = true) : PlainByte b := by
  simp only [hexByte, Bool.or_eq_true, Bool.and_eq_true, decide_eq_true_eq] at h
  rcases h with h | h
  · exact plainByte_of_digit h
  · unfold PlainByte; omega

theorem all_plain_of_firstRefused {allowed : Nat → UInt8 → Bool} {t : Text}
    (hp : ∀ i b, allowed i b = true → PlainByte b) (h : firstRefused allowed 0 (utf8 t) = none) :
    t.all isPlain = true := by
  have hb : ∀ b ∈ utf8 t, PlainByte b := by
    intro b hb
    obtain ⟨k, hk, rfl⟩ := List.getElem_of_mem hb
    exact hp _ _ (firstRefused_eq_none.mp h k hk)
  have ha := isAscii_of_utf8 (t := t) fun b h => Nat.lt_of_lt_of_le (hb b h).2.1 (by decide)
  rw [List.all_eq_true]
  intro c hc
  rw [utf8_ascii ha] at hb
  have hcb := hb _ (List.mem_map.mpr ⟨c, hc, rfl⟩)
  have hlt : c.toNat < 0x80 := by
    rw [isAscii, List.all_eq_true] at ha
    exact of_decide_eq_true (ha c hc)
  have hn : c.toNat.toUInt8.toNat = c.toNat := by
    simp only [Nat.toUInt8, UInt8.toNat_ofNat']
    omega
  unfold PlainByte at hcb
  rw [hn] at hcb
  exact isPlain_of_toNat hcb

theorem isAscii_of_plain {t : Text} (h : t.all isPlain = true) : isAscii t = true := by
  rw [List.all_eq_true] at h
  rw [isAscii, List.all_eq_true]
  intro c hc
  have := h c hc
  simp only [isPlain, Bool.and_eq_true, decide_eq_true_eq] at this
  exact decide_eq_true (by omega)

theorem isRaw_of_plain {t : Text} (h : t.all isPlain = true) : t.all isRaw = true := by
  rw [List.all_eq_true] at h ⊢
  intro c hc
  have := h c hc
  simp only [isPlain, Bool.and_eq_true] at this
  exact this.1

theorem Identifier.plain {max : Nat} (x : Identifier max) : x.value.all isPlain = true :=
  all_plain_of_firstRefused (fun _ _ => plainByte_of_identifierByte) (validateBytes_eq_ok.mp x.ok).2.2

theorem Identifier.length_le {max : Nat} (x : Identifier max) : x.value.length ≤ max := by
  rw [← length_utf8_ascii (isAscii_of_plain x.plain)]
  exact (validateBytes_eq_ok.mp x.ok).2.1

theorem ShortErrorCode.plain (x : ShortErrorCode) : x.value.all isPlain = true :=
  all_plain_of_firstRefused (fun _ _ => plainByte_of_shortErrorCodeByte) (validateBytes_eq_ok.mp x.ok).2.2

theorem ShortErrorCode.length_le (x : ShortErrorCode) : x.value.length ≤ shortErrorCodeMaxLen := by
  rw [← length_utf8_ascii (isAscii_of_plain x.plain)]
  exact (validateBytes_eq_ok.mp x.ok).2.1

theorem validateDigest_eq_ok {a : DigestAlgorithm} {hex : Text} :
    validateDigest a hex = .ok () ↔ (utf8 hex).length = a.hexLen ∧ firstRefused hexByte 0 (utf8 hex) = none := by
  unfold validateDigest
  simp only
  split
  · rename_i h; simp [h]
  · rename_i h
    split
    · rename_i i hi; simp [hi]
    · rename_i hi; simp [hi, not_not.mp h]

theorem Digest.plain (x : Digest) : x.hex.all isPlain = true :=
  all_plain_of_firstRefused (fun _ _ => plainByte_of_hexByte) (validateDigest_eq_ok.mp x.ok).2

theorem Digest.length_hex (x : Digest) : x.hex.length = 64 := by
  rw [← length_utf8_ascii (isAscii_of_plain x.plain), (validateDigest_eq_ok.mp x.ok).1]
  cases x.algorithm; rfl

end Aizign
