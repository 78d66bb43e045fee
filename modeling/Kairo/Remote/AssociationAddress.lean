import Mathlib.Data.List.DropRight

/-!
# Association addresses as text

The transport address of an actor system, how it is printed and how it is parsed.  A text is the list
of its characters.  The parser takes what follows the last colon for the port, so the text of an address
without a port is read back only if its host has no colon.
-/

namespace Kairo.Remote

open List

abbrev Text := List Char

/-! ## Functions of the standard library -/

/-- `char::is_whitespace`: the characters with the Unicode property `White_Space`. -/
def isWhitespace (ch : Char) : Bool :=
  let n := ch.toNat
  9 ≤ n && n ≤ 13 || 0x2000 ≤ n && n ≤ 0x200a ||
    [0x20, 0x85, 0xa0, 0x1680, 0x2028, 0x2029, 0x202f, 0x205f, 0x3000].contains n

def trim (value : Text) : Text := (value.dropWhile isWhitespace).rdropWhile isWhitespace

/-- Splits at the first occurrence of a separator that is not empty. -/
def splitOnce (separator : Text) : Text → Option (Text × Text)
  | [] => none
  | ch :: value =>
    if separator.isPrefixOf (ch :: value) then some ([], (ch :: value).drop separator.length)
    else (splitOnce separator value).map fun x => (ch :: x.1, x.2)

/-- Splits at the last occurrence of a character. -/
def rsplitOnce (separator : Char) (value : Text) : Option (Text × Text) :=
  (splitOnce [separator] value.reverse).map fun x => (x.2.reverse, x.1.reverse)

/-- `str::parse::<u16>`: decimal digits, with a plus sign or without. -/
def parsePort (value : Text) : Option UInt16 :=
  let digits := if value.head? = some '+' then value.tail else value
  let n := Nat.ofDigitChars 10 digits 0
  if digits ≠ [] ∧ digits.all Char.isDigit ∧ n < UInt16.size then some (.ofNat n) else none

/-! ## Addresses -/

def validAddressPart (value separators : Text) : Bool :=
  !value.isEmpty && trim value == value && !value.any isWhitespace && !value.any separators.contains

def validParts (protocol system host : Text) : Bool :=
  validAddressPart protocol [':', '/', '@', '#'] && validAddressPart system [':', '/', '@', '#'] &&
    validAddressPart host ['/', '@', '#']

/-- An address; only `new` makes one, from valid parts. -/
structure RemoteAssociationAddress where
  protocol : Text
  system : Text
  host : Text
  port : Option UInt16
  valid : validParts protocol system host = true
  deriving DecidableEq

structure InvalidRemoteRef where
  path : Text
  reason : String
  deriving DecidableEq

namespace RemoteAssociationAddress

def printPort : Option UInt16 → Text
  | some port => ':' :: Nat.toDigits 10 port.toNat
  | none => []

def printParts (protocol system host : Text) (port : Option UInt16) : Text :=
  protocol ++ "://".toList ++ (system ++ ['@'] ++ (host ++ printPort port))

def new (protocol system host : Text) (port : Option UInt16) :
    Except InvalidRemoteRef RemoteAssociationAddress :=
  if valid : validParts protocol system host = true then .ok { protocol, system, host, port, valid }
  else .error ⟨printParts protocol system host port,
    "remote association address requires valid protocol, system, and host"⟩

def print (a : RemoteAssociationAddress) : Text := printParts a.protocol a.system a.host a.port

def fromHostPort (value protocol system hostPort : Text) :
    Except InvalidRemoteRef RemoteAssociationAddress :=
  match rsplitOnce ':' hostPort with
  | some (host, port) =>
    match parsePort port with
    | some port => new protocol system host (some port)
    | none => .error ⟨value, "remote association port must fit in u16"⟩
  | none => new protocol system hostPort none

def fromStr (value : Text) : Except InvalidRemoteRef RemoteAssociationAddress :=
  match splitOnce "://".toList value with
  | none => .error ⟨value, "remote association address must start with protocol://"⟩
  | some (protocol, rest) =>
    if rest.contains '/' then
      .error ⟨value, "remote association address must not include an actor path"⟩
    else match splitOnce ['@'] rest with
      | none => .error ⟨value, "remote association address must include system@host"⟩
      | some (system, hostPort) => fromHostPort value protocol system hostPort

end RemoteAssociationAddress

/-! ## Splitting and printing -/

variable {separator : Char} {rest value left right : Text}

lemma splitOnce_append (h : separator ∉ left) :
    splitOnce (separator :: rest) (left ++ separator :: rest ++ right) = some (left, right) := by
  induction left with
  | nil => simp [splitOnce]
  | cons ch left ih =>
    obtain ⟨hne, h⟩ := not_or.mp (mem_cons.not.mp h)
    rw [cons_append, cons_append, splitOnce, ih h, if_neg]
    · rfl
    · simp [hne]

lemma splitOnce_eq_none : splitOnce [separator] value = none ↔ separator ∉ value := by
  induction value with
  | nil => simp [splitOnce]
  | cons ch value ih =>
    by_cases hch : separator = ch
    · simp [splitOnce, hch]
    · simp [splitOnce, hch, ih]

lemma rsplitOnce_append (h : separator ∉ right) :
    rsplitOnce separator (left ++ separator :: right) = some (left, right) := by
  have hrev : (left ++ separator :: right).reverse =
      right.reverse ++ [separator] ++ left.reverse := by simp
  rw [rsplitOnce, hrev, splitOnce_append (mem_reverse.not.mpr h)]
  simp

lemma not_mem_toDigits {ch : Char} (h : ch.isDigit = false) (n : ℕ) : ch ∉ Nat.toDigits 10 n := by
  intro hc
  rw [Nat.isDigit_of_mem_toDigits (by decide) (by decide) hc] at h
  cases h

lemma parsePort_toDigits (port : UInt16) : parsePort (Nat.toDigits 10 port.toNat) = some port := by
  have hplus : (Nat.toDigits 10 port.toNat).head? ≠ some '+' := fun hc =>
    not_mem_toDigits rfl _ (mem_of_head? hc)
  have hdigits : (Nat.toDigits 10 port.toNat).all Char.isDigit = true :=
    all_eq_true.mpr fun ch hch => Nat.isDigit_of_mem_toDigits (by decide) (by decide) hch
  have hn : Nat.ofDigitChars 10 (Nat.toDigits 10 port.toNat) 0 = port.toNat :=
    Nat.ofDigitChars_toDigits (by decide) (by decide)
  rw [parsePort, if_neg hplus]
  simp [hn, hdigits, port.toNat_lt_size]

namespace RemoteAssociationAddress

lemma not_mem_of_valid {separators : Text} (h : validAddressPart value separators = true) {ch : Char}
    (hch : ch ∈ separators) : ch ∉ value := by
  intro hv
  simp only [validAddressPart, Bool.and_eq_true, Bool.not_eq_true', any_eq_false] at h
  exact h.2 ch hv (contains_iff_mem.mpr hch)

lemma fromStr_print_eq (a : RemoteAssociationAddress) :
    fromStr a.print = fromHostPort a.print a.protocol a.system (a.host ++ printPort a.port) := by
  have hv := a.valid
  simp only [validParts, Bool.and_eq_true] at hv
  obtain ⟨⟨hp, hs⟩, hh⟩ := hv
  have hport : '/' ∉ printPort a.port := by
    cases a.port with
    | none => exact not_mem_nil
    | some port => simp [printPort, not_mem_toDigits]
  have hslash : (a.system ++ ['@'] ++ (a.host ++ printPort a.port)).contains '/' = false := by
    rw [← Bool.not_eq_true, contains_iff_mem]
    simp [not_mem_of_valid hs, not_mem_of_valid hh, hport]
  have hsplit : splitOnce "://".toList a.print =
      some (a.protocol, a.system ++ ['@'] ++ (a.host ++ printPort a.port)) :=
    splitOnce_append (not_mem_of_valid hp (by decide))
  rw [fromStr, hsplit]
  dsimp only
  rw [hslash, if_neg Bool.false_ne_true, splitOnce_append (not_mem_of_valid hs (by decide))]

/-- The last colon of the printed address, if any, is the one before the port. -/
def ReadsBack (a : RemoteAssociationAddress) : Prop := a.port.isSome = true ∨ ':' ∉ a.host

instance (a : RemoteAssociationAddress) : Decidable a.ReadsBack := inferInstanceAs (Decidable (_ ∨ _))

lemma port_of_new {protocol system host : Text} {port : Option UInt16}
    {a : RemoteAssociationAddress} (h : new protocol system host port = .ok a) : a.port = port := by
  rw [new] at h
  split at h <;> cases h
  rfl

/-- **Addresses are read back.**  An accepted address is what the parser makes of its text exactly if it
has a port or a host without a colon, and no two such addresses have one text. -/
theorem fromStr_print (a : RemoteAssociationAddress) : (fromStr a.print = .ok a ↔ a.ReadsBack) ∧
    ∀ b : RemoteAssociationAddress, a.ReadsBack → b.ReadsBack → a.print = b.print → a = b := by
  have hiff : ∀ a : RemoteAssociationAddress, fromStr a.print = .ok a ↔ a.ReadsBack := by
    intro a
    rw [fromStr_print_eq, ReadsBack, fromHostPort]
    obtain ⟨protocol, system, host, port, valid⟩ := a
    cases port with
    | some port =>
      rw [printPort, rsplitOnce_append (not_mem_toDigits rfl _)]
      dsimp only
      rw [parsePort_toDigits]
      exact iff_of_true (dif_pos valid) (.inl rfl)
    | none =>
      rw [printPort, append_nil]
      dsimp only
      cases hr : rsplitOnce ':' host with
      | none =>
        rw [rsplitOnce, Option.map_eq_none_iff, splitOnce_eq_none, mem_reverse] at hr
        exact iff_of_true (dif_pos valid) (.inr hr)
      | some x =>
        -- what follows the last colon of the host is taken for a port
        refine iff_of_false (fun hc => ?_) (fun hc => ?_)
        · dsimp only at hc
          split at hc
          · cases port_of_new hc
          · cases hc
        · rw [rsplitOnce, splitOnce_eq_none.mpr (mem_reverse.not.mpr (hc.resolve_left nofun))] at hr
          cases hr
  refine ⟨hiff a, fun b ha hb he => ?_⟩
  have h := (hiff a).mpr ha
  rw [he, (hiff b).mpr hb] at h
  exact (Except.ok.inj h).symm

/-- A host with a colon prints as a host and a port. -/
theorem fromStr_print_colon : ∃ a b : RemoteAssociationAddress,
    new "kairo".toList "sys".toList "h:1".toList none = .ok a ∧
    new "kairo".toList "sys".toList "h".toList (some 1) = .ok b ∧
    a ≠ b ∧ a.print = b.print ∧ fromStr a.print = .ok b :=
  ⟨⟨"kairo".toList, "sys".toList, "h:1".toList, none, by decide⟩,
    ⟨"kairo".toList, "sys".toList, "h".toList, some 1, by decide⟩, by decide +kernel⟩

end RemoteAssociationAddress

end Kairo.Remote
