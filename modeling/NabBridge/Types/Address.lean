/-
**Ethereum addresses and voucher denoms as the module spells them.**

On the Cosmos side an Ethereum address is a string. `validateEthAddress` is the only check it goes
through: `0x` and forty hexadecimal digits of either case, so the zero address and every mixed-case
spelling of one address pass. A voucher denom is the module name followed by such a string.

* `validateEthAddress_eq_ok_iff`: what the check accepts;
* `hexToAddress`: the address behind a spelling; go-ethereum reads one out of any string, and
  `hexToAddress_of_digits` says which out of an accepted one;
* `gravityDenomToERC20_gravityDenom`: reading a voucher denom back;
* `gravityDenomToERC20_eq_ok_iff`: the denoms that are vouchers.
-/

import NabBridge.Lib.Bytes

namespace NabBridge

/-- The hexadecimal digits, of either case. -/
def IsHexDigit (byte : UInt8) : Prop :=
  IsDigit byte ∨ (65 ≤ byte.toNat ∧ byte.toNat ≤ 70) ∨ (97 ≤ byte.toNat ∧ byte.toNat ≤ 102)

instance : DecidablePred IsHexDigit := fun byte => by unfold IsHexDigit; infer_instance

/-- The three ways `ValidateEthAddress` fails. -/
inductive AddressError where
  /-- `empty` -/
  | empty
  /-- `address(%s) doesn't pass regex` -/
  | regex (address : Bytes)
  /-- `address(%s) of the wrong length exp(%d) actual(%d)` -/
  | length (address : Bytes)
  deriving DecidableEq, Repr

/-- `ETHContractAddressLen` -/
def ethContractAddressLen : Nat := 42

/-- The expression `^0x[0-9a-fA-F]{40}$`. -/
def matchesAddressRegex : Bytes → Bool
  | 48 :: 120 :: digits => digits.length = 40 ∧ ∀ digit ∈ digits, IsHexDigit digit
  | _ => false

/-- `ValidateEthAddress` -/
def validateEthAddress (address : Bytes) : Except AddressError Unit :=
  if address = [] then .error .empty
  else if ¬ matchesAddressRegex address then .error (.regex address)
  else if address.length ≠ ethContractAddressLen then .error (.length address)
  else .ok ()

theorem matchesAddressRegex_iff (address : Bytes) :
    matchesAddressRegex address = true ↔
      ∃ digits, address = 48 :: 120 :: digits ∧ digits.length = 40 ∧
        ∀ digit ∈ digits, IsHexDigit digit := by
  constructor
  · intro accepted
    unfold matchesAddressRegex at accepted
    split at accepted
    · rename_i digits
      exact ⟨digits, rfl, by simpa using accepted⟩
    · simp at accepted
  · rintro ⟨digits, rfl, length, hex⟩
    simpa [matchesAddressRegex] using ⟨length, hex⟩

/-- **An accepted address** is `0x` and forty hexadecimal digits. -/
theorem validateEthAddress_eq_ok_iff (address : Bytes) :
    validateEthAddress address = .ok () ↔
      ∃ digits, address = 48 :: 120 :: digits ∧ digits.length = 40 ∧
        ∀ digit ∈ digits, IsHexDigit digit := by
  rw [← matchesAddressRegex_iff, validateEthAddress]
  constructor
  · intro accepted
    split_ifs at accepted with empty matched length
    · exact matched
  · intro matched
    obtain ⟨digits, rfl, length, hex⟩ := (matchesAddressRegex_iff address).mp matched
    simp [matched, length, ethContractAddressLen]

theorem length_of_validateEthAddress {address : Bytes}
    (valid : validateEthAddress address = .ok ()) : address.length = 42 := by
  obtain ⟨digits, rfl, length, _⟩ := (validateEthAddress_eq_ok_iff address).mp valid
  simp [length]

/-- The symbols of an accepted address are hexadecimal digits and the `x` of its prefix. -/
theorem mem_of_validateEthAddress {address : Bytes} {byte : UInt8}
    (valid : validateEthAddress address = .ok ()) (member : byte ∈ address) :
    byte = 120 ∨ IsHexDigit byte := by
  obtain ⟨digits, rfl, _, hex⟩ := (validateEthAddress_eq_ok_iff address).mp valid
  rcases List.mem_cons.mp member with rfl | inRest
  · exact Or.inr (by decide)
  · rcases List.mem_cons.mp inRest with rfl | inDigits
    · exact Or.inl rfl
    · exact Or.inr (hex byte inDigits)

theorem not_mem_of_validateEthAddress {address : Bytes} {byte : UInt8}
    (valid : validateEthAddress address = .ok ()) (other : byte ≠ 120) (notHex : ¬ IsHexDigit byte) :
    byte ∉ address := fun member =>
  (mem_of_validateEthAddress valid member).elim other notHex

/-! ### The address behind a spelling -/

/-- A twenty-byte address. -/
abbrev EthAddress := Fin (2 ^ 160)

instance ethAddressNeZero : NeZero (2 ^ 160) := inferInstance

/-- The value of a hexadecimal digit of either case. -/
def hexDigitValue (byte : UInt8) : Nat :=
  if byte.toNat ≤ 57 then byte.toNat - 48 else if byte.toNat ≤ 70 then byte.toNat - 55
  else byte.toNat - 87

/-- The number a string of hexadecimal digits spells. -/
def hexValue (digits : Bytes) : Nat :=
  digits.foldl (fun value digit => value * 16 + hexDigitValue digit) 0

/-- The pairs of hexadecimal digits a string begins with: what `hex.DecodeString` has decoded when it
fails. -/
def hexPairs : Bytes → Bytes
  | first :: second :: rest =>
      if IsHexDigit first ∧ IsHexDigit second then first :: second :: hexPairs rest else []
  | _ => []

/-- `gethcommon.FromHex` before it decodes: without the prefix, and with an even number of digits. -/
def fromHexDigits (text : Bytes) : Bytes :=
  let digits := if text.take 2 = [48, 120] ∨ text.take 2 = [48, 88] then text.drop 2 else text
  if digits.length % 2 = 1 then 48 :: digits else digits

/-- `gethcommon.HexToAddress`: what is decoded is cut to its last twenty bytes. -/
def hexToAddress (text : Bytes) : EthAddress :=
  Fin.ofNat (2 ^ 160) (hexValue (hexPairs (fromHexDigits text)))

theorem hexPairs_of_digits : ∀ {digits : Bytes}, digits.length % 2 = 0 →
    (∀ digit ∈ digits, IsHexDigit digit) → hexPairs digits = digits
  | [], _, _ => rfl
  | [_], odd, _ => absurd odd (by simp)
  | first :: second :: rest, even, hex => by
      have evenRest : rest.length % 2 = 0 := by
        simp only [List.length_cons] at even
        omega
      have hexRest : ∀ digit ∈ rest, IsHexDigit digit := fun digit member =>
        hex digit (List.mem_cons_of_mem _ (List.mem_cons_of_mem _ member))
      rw [hexPairs, if_pos ⟨hex first List.mem_cons_self, hex second (by simp)⟩,
        hexPairs_of_digits evenRest hexRest]

/-- **The address an accepted string spells.** -/
theorem hexToAddress_of_digits {digits : Bytes} (length : digits.length = 40)
    (hex : ∀ digit ∈ digits, IsHexDigit digit) :
    hexToAddress (48 :: 120 :: digits) = Fin.ofNat (2 ^ 160) (hexValue digits) := by
  have stripped : fromHexDigits (48 :: 120 :: digits) = digits := by
    simp [fromHexDigits, length]
  rw [hexToAddress, stripped, hexPairs_of_digits (by rw [length]) hex]

/-! ### Voucher denoms -/

/-- `ModuleName` -/
def moduleName : Bytes := ascii "nab"

/-- `GravityDenomPrefix`; `GravityDenomSeparator` is empty. -/
def gravityDenomPrefix : Bytes := moduleName

/-- `GravityDenomLen` -/
def gravityDenomLen : Nat := gravityDenomPrefix.length + ethContractAddressLen

/-- `GravityDenom` -/
def gravityDenom (tokenContract : Bytes) : Bytes := gravityDenomPrefix ++ tokenContract

/-- The ways `GravityDenomToERC20` fails. -/
inductive GravityDenomError where
  /-- `denom prefix(%s) not equal to expected(%s)` -/
  | prefixed (denom : Bytes)
  /-- `error(%s) validating ethereum contract address` -/
  | contract (reason : AddressError)
  /-- `len(denom)(%d) not equal to GravityDenomLen(%d)` -/
  | length (denom : Bytes)
  deriving DecidableEq, Repr

/-- `GravityDenomToERC20` -/
def gravityDenomToERC20 (denom : Bytes) : Except GravityDenomError Bytes :=
  if ¬ gravityDenomPrefix.isPrefixOf denom then .error (.prefixed denom)
  else
    let contract := denom.drop gravityDenomPrefix.length
    match validateEthAddress contract with
    | .error reason => .error (.contract reason)
    | .ok () => if denom.length ≠ gravityDenomLen then .error (.length denom) else .ok contract

/-- **A voucher denom is read back** to the contract it was made from. -/
theorem gravityDenomToERC20_gravityDenom {contract : Bytes}
    (valid : validateEthAddress contract = .ok ()) :
    gravityDenomToERC20 (gravityDenom contract) = .ok contract := by
  have starts : gravityDenomPrefix.isPrefixOf (gravityDenom contract) = true := by
    simp [gravityDenom]
  have tail : (gravityDenom contract).drop gravityDenomPrefix.length = contract := by
    simp [gravityDenom]
  have length : (gravityDenom contract).length = gravityDenomLen := by
    rw [gravityDenom, List.length_append, length_of_validateEthAddress valid]
    rfl
  rw [gravityDenomToERC20]
  simp only [starts, not_true_eq_false, if_false, tail, valid, length, ne_eq]

/-- **The voucher denoms** are exactly the module name followed by an accepted address. -/
theorem gravityDenomToERC20_eq_ok_iff (denom contract : Bytes) :
    gravityDenomToERC20 denom = .ok contract ↔
      denom = gravityDenom contract ∧ validateEthAddress contract = .ok () := by
  constructor
  · intro accepted
    by_cases starts : gravityDenomPrefix.isPrefixOf denom = true
    · obtain ⟨tail, rfl⟩ := List.isPrefixOf_iff_prefix.mp starts
      simp only [gravityDenomToERC20, starts, not_true_eq_false, if_false, List.drop_left]
        at accepted
      split at accepted
      · simp at accepted
      · rename_i valid
        split_ifs at accepted with length
        · obtain rfl := Except.ok.inj accepted
          exact ⟨rfl, valid⟩
    · simp [gravityDenomToERC20, starts] at accepted
  · rintro ⟨rfl, valid⟩
    exact gravityDenomToERC20_gravityDenom valid

theorem gravityDenom_injective : Function.Injective gravityDenom := by
  intro first second equal
  exact List.append_cancel_left equal

end NabBridge
