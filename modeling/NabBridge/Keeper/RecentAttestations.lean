/-
**The query for the most recent attestations.**

`GetMostRecentAttestations` loads the mapping of all attestations, walks its nonces in order, and collects a
pointer to the variable of its inner loop for each attestation. In the Go version of the module such a loop
has one variable for all its rounds. So the memory is a part of the state here: the variable of each inner
loop, by the nonce the loop is for, and the pointers to them.
-/

import NabBridge.Keeper.Attestation

namespace NabBridge

/-- The panic of `make`. -/
inductive MakePanic where
  /-- `makeslice: cap out of range` -/
  | capOutOfRange
  deriving DecidableEq, Repr

/-- The largest capacity of a slice of pointers: 2^48 bytes can be addressed, and a pointer is eight. -/
def maxPointerCap : Nat := 2 ^ 45

/-- The local state of `GetMostRecentAttestations`. -/
structure Collected where
  /-- `att`, the variable of the inner loop over the attestations of a nonce -/
  loopVariables : Store Nat Attestation
  /-- `attestations`, each a pointer to the variable of a nonce -/
  attestations : List Nat
  count : Nat
  deriving DecidableEq

/-- No inner loop has been entered. -/
def Collected.empty : Collected := ⟨Store.empty, [], 0⟩

/-- The inner loop: a round first sets the variable, also the round that breaks. -/
def collectNonce (limit nonce : Nat) : List Attestation → Collected → Collected
  | [], collected => collected
  | att :: rest, collected =>
      let collected := { collected with loopVariables := collected.loopVariables.set nonce att }
      if collected.count ≥ limit then collected
      else
        collectNonce limit nonce rest
          { collected with
            attestations := collected.attestations ++ [nonce]
            count := collected.count + 1 }

/-- The outer loop, over the sorted nonces. -/
def collectNonces (attestationMapping : Nat → List Attestation) (limit : Nat) :
    List Nat → Collected → Collected
  | [], collected => collected
  | nonce :: later, collected =>
      if collected.count ≥ limit then collected
      else
        collectNonces attestationMapping limit later
          (collectNonce limit nonce (attestationMapping nonce) collected)

/-- What the collected pointers point to when the function returns. -/
def Collected.read (collected : Collected) : List Attestation :=
  collected.attestations.filterMap collected.loopVariables.get

/-- `GetMostRecentAttestations`; where `make` succeeds, `int(limit)` is the limit itself. -/
def Oracle.getMostRecentAttestations (oracle : Oracle) (limit : Nat) :
    Outcome Empty MakePanic (List Attestation) :=
  if limit > maxPointerCap then .panic .capOutOfRange
  else .ok (collectNonces oracle.attestationsAt limit oracle.eventNonces Collected.empty).read

/-- `QUERY_ATTESTATIONS_LIMIT` -/
def queryAttestationsLimit : Nat := 1000

/-- `GetAttestations` -/
def Oracle.getAttestations (oracle : Oracle) (limit : Nat) : Outcome Empty MakePanic (List Attestation) :=
  oracle.getMostRecentAttestations (if limit > queryAttestationsLimit then queryAttestationsLimit else limit)

end NabBridge
