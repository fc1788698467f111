import MailCue.Backend.Gpg.Service
import MailCue.Lib.Keyring

/-!
# The keyring of all users

GnuPG on the one keyring of `_get_gpg`, as a set of fingerprints of public keys and
of secret ones. What armored texts and messages hold is a parameter.
-/
namespace MailCue.Backend.Gpg
open MailCue.Lib

/-- The contents of OpenPGP data. -/
structure OpenPgp where
  /-- The keys of an armored text, each with whether its secret part is there. -/
  keys : Text → List (String × Bool)
  generated : Keyring String → GenKeyInput → Except Text String
  describe : String → KeyInfo
  armor : String → Text
  /-- The keys a message is encrypted to and its plaintext. -/
  message : Bytes → Option (List String × Bytes)
  encrypted : Bytes → List String → Bytes
  verify : List String → Bytes → Bytes → Verified

def OpenPgp.gnupg (pgp : OpenPgp) : Gnupg (Keyring String) where
  genKey r input :=
    match pgp.generated r input with
    | .error stderr => (.error stderr, r)
    | .ok fingerprint => (.ok fingerprint, r.importKey (fingerprint, true))
  importKeys r armored_key :=
    let keys := pgp.keys armored_key
    (⟨keys.map Prod.fst, if keys = [] then "no valid OpenPGP data found".toList else []⟩,
      r.importAll keys)
  listKeys r := r.publicKeys.map fun f => { pgp.describe f with fingerprint := f }
  exportKeys r fingerprint := if fingerprint ∈ r.publicKeys then pgp.armor fingerprint else []
  deleteKeys r fingerprint secret := r.delete (fingerprint, secret)
  encrypt r data fingerprints :=
    if ∀ f ∈ fingerprints, f ∈ r.publicKeys then .ok (pgp.encrypted data fingerprints)
    else .error "No public key".toList
  decrypt r data :=
    match pgp.message data with
    | none => none
    | some (recipients, plaintext) =>
      if ∃ f ∈ recipients, f ∈ r.secretKeys then some plaintext else none
  verifyData r sig data := pgp.verify r.publicKeys sig data

/-- A test world with one key, and one message encrypted to it. -/
def testPgp : OpenPgp where
  keys armored_key := if Text.contains armored_key "owner".toList then [("AA", false)] else []
  generated _ _ := .ok "AA"
  describe fingerprint := { fingerprint := fingerprint, uids := ["Owner <owner@x>".toList] }
  armor _ := []
  message data := if data = [1] then some (["AA"], [2]) else none
  encrypted _ _ := [1]
  verify _ _ _ := ⟨false, none, "no public key".toList, none, none⟩

end MailCue.Backend.Gpg
