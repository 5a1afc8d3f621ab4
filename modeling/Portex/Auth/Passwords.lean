import Portex.Foundation.Base64
import Portex.Foundation.Utf8
import Portex.Scheduler.State
import Mathlib.Data.List.DropRight

/-!
# Password hashes

`hash_password` and `verify_password` of `services/auth.py`: the text that a password is kept as, of
seven parts between dollar signs, the last two of which are the salt and the derived key.

## Main definitions

* `urlsafe`: the alphabet of `base64.urlsafe_b64encode`
* `Scrypt`: `hashlib.scrypt`, at the parameters of the service
* `hashPassword`, `verifyPassword`

## Main results

* `verifyPassword_hashPassword`: a hash verifies the passwords that have its key
* `hashPassword_inj`: what two equal hashes have in common
-/

namespace Portex

open Foundation

namespace Auth

/-! ## Base64 -/

def urlsafeChar (n : ℕ) : Char :=
  if n < 26 then Char.ofNat (65 + n)
  else if n < 52 then Char.ofNat (71 + n)
  else if n < 62 then Char.ofNat (n - 4)
  else if n = 62 then '-'
  else '_'

/-- `urlsafe_b64decode` replaces `'-'` and `'_'`, and then reads the standard alphabet. -/
def urlsafeValue (ch : Char) : Option ℕ :=
  let n := ch.toNat
  if 65 ≤ n ∧ n ≤ 90 then some (n - 65)
  else if 97 ≤ n ∧ n ≤ 122 then some (n - 71)
  else if 48 ≤ n ∧ n ≤ 57 then some (n + 4)
  else if ch = '+' ∨ ch = '-' then some 62
  else if ch = '/' ∨ ch = '_' then some 63
  else none

def urlsafe : Base64 where
  char := urlsafeChar
  value := urlsafeValue
  value_char := by decide
  char_ne_pad := by decide

/-- `_base64_urlsafe_encode`. -/
def base64UrlsafeEncode (value : List UInt8) : List Char :=
  (urlsafe.encodePadded value).rdropWhile (· = '=')

/-- `_base64_urlsafe_decode`; `none` is a `ValueError`. -/
def base64UrlsafeDecode (value : List Char) : Option (List UInt8) :=
  if value = [] then none
  else
    let paddedValue := value ++ Base64.padding value.length
    -- `encode("ascii")`
    if paddedValue.any fun ch => 128 ≤ ch.toNat then none else urlsafe.decode paddedValue

/-! ## Hashes -/

/-- `hashlib.scrypt(password, salt=salt, n=16384, r=8, p=1, dklen=32)`. -/
structure Scrypt where
  derive : List UInt8 → List UInt8 → List UInt8
  length_derive : ∀ password salt, (derive password salt).length = 32

/-- `_derive_password_key`. -/
def Scrypt.derivePasswordKey (scrypt : Scrypt) (password : List Char) (salt : List UInt8) :
    List UInt8 :=
  scrypt.derive (encodeUtf8 password) salt

/-- The parts of a hash before the salt: the scheme and the parameters. -/
def hashParameters : List (List Char) :=
  ["scrypt-v1".toList, "16384".toList, "8".toList, "1".toList, "32".toList]

/-- `hash_password`, with the salt that it draws. -/
def hashPassword (scrypt : Scrypt) (password : List Char) (salt : List UInt8) : List Char :=
  ['$'].intercalate (hashParameters ++ [base64UrlsafeEncode salt,
    base64UrlsafeEncode (scrypt.derivePasswordKey password salt)])

/-- The body of `verify_password`; `none` is a `ValueError`. -/
def checkPassword (scrypt : Scrypt) (password passwordHash : List Char) : Option Bool :=
  match passwordHash.splitOn '$' with
  | [scheme, n, r, p, dklen, saltPayload, digestPayload] =>
    if scheme ≠ "scrypt-v1".toList then some false
    else do
      let parsedN ← parseInteger n
      let parsedR ← parseInteger r
      let parsedP ← parseInteger p
      let parsedDklen ← parseInteger dklen
      if parsedN ≠ 16384 ∨ parsedR ≠ 8 ∨ parsedP ≠ 1 ∨ parsedDklen ≠ 32 then some false
      else
        let salt ← base64UrlsafeDecode saltPayload
        let expectedDigest ← base64UrlsafeDecode digestPayload
        if salt.length ≠ 16 ∨ expectedDigest.length ≠ 32 then some false
        else some (scrypt.derivePasswordKey password salt = expectedDigest)
  | _ => none

/-- `verify_password`. -/
def verifyPassword (scrypt : Scrypt) (password passwordHash : List Char) : Bool :=
  (checkPassword scrypt password passwordHash).getD false

/-! ## Encoded bytes -/

variable {value value' salt salt' : List UInt8} {scrypt : Scrypt} {password password' : List Char}

theorem rdropWhile_append_replicate {l : List Char} (hl : ∀ ch ∈ l, ch ≠ '=') (n : ℕ) :
    (l ++ List.replicate n '=').rdropWhile (· = '=') = l := by
  induction n with
  | zero =>
    rw [List.replicate_zero, List.append_nil, List.rdropWhile_eq_self_iff]
    intro hne
    simpa using hl _ (List.getLast_mem hne)
  | succ n ih =>
    rw [List.replicate_succ', ← List.append_assoc, List.rdropWhile_concat_pos _ _ _ (by simp), ih]

theorem base64UrlsafeEncode_eq (value : List UInt8) :
    base64UrlsafeEncode value = urlsafe.encode value :=
  rdropWhile_append_replicate (fun _ h => Base64.ne_pad_of_mem_encode h) _

theorem urlsafeChar_range : ∀ n < 64, (urlsafeChar n).toNat < 128 ∧ urlsafeChar n ≠ '$' := by
  decide

theorem of_mem_encode {ch : Char} (h : ch ∈ urlsafe.encode value) : ch.toNat < 128 ∧ ch ≠ '$' := by
  obtain ⟨n, hn, rfl⟩ := List.mem_map.mp h
  exact urlsafeChar_range n (Base64.sextets_lt value n hn)

theorem base64UrlsafeDecode_encode (hvalue : value ≠ []) :
    base64UrlsafeDecode (base64UrlsafeEncode value) = some value := by
  rw [base64UrlsafeEncode_eq]
  have hne : urlsafe.encode value ≠ [] := by
    intro hnil
    apply hvalue
    exact Base64.encode_injective urlsafe (hnil.trans rfl)
  have hascii : ¬ (urlsafe.encode value ++ Base64.padding (urlsafe.encode value).length).any
      (fun ch => 128 ≤ ch.toNat) = true := by
    rw [List.any_eq_true]
    rintro ⟨ch, hch, hlarge⟩
    rw [decide_eq_true_iff] at hlarge
    rcases List.mem_append.mp hch with hch | hch
    · exact absurd (of_mem_encode hch).1 (Nat.not_lt.mpr hlarge)
    · obtain rfl := List.eq_of_mem_replicate hch
      exact absurd hlarge (by decide)
  unfold base64UrlsafeDecode
  rw [if_neg hne]
  dsimp only
  rw [if_neg hascii]
  exact Base64.decode_encodePadded urlsafe value

/-! ## Hashes -/

/-- The parts of a hash have no dollar signs, so that it is split where they were joined. -/
theorem splitOn_hashPassword (scrypt : Scrypt) (password : List Char) (salt : List UInt8) :
    (hashPassword scrypt password salt).splitOn '$' = hashParameters ++ [base64UrlsafeEncode salt,
      base64UrlsafeEncode (scrypt.derivePasswordKey password salt)] := by
  apply List.splitOn_intercalate
  · intro part hpart hdollar
    rw [base64UrlsafeEncode_eq, base64UrlsafeEncode_eq] at hpart
    rcases List.mem_append.mp hpart with hpart | hpart
    · have hparameters : ∀ part ∈ hashParameters, '$' ∉ part := by decide
      exact hparameters part hpart hdollar
    · rcases List.mem_pair.mp hpart with rfl | rfl
      · exact (of_mem_encode hdollar).2 rfl
      · exact (of_mem_encode hdollar).2 rfl
  · simp

theorem derivePasswordKey_ne_nil (scrypt : Scrypt) (password : List Char) (salt : List UInt8) :
    scrypt.derivePasswordKey password salt ≠ [] := by
  intro hnil
  have hlength := scrypt.length_derive (encodeUtf8 password) salt
  rw [Scrypt.derivePasswordKey] at hnil
  rw [hnil] at hlength
  cases hlength

/-- **A hash** verifies just the passwords whose key is that of its own. -/
theorem verifyPassword_hashPassword (scrypt : Scrypt) (password password' : List Char)
    (hsalt : salt.length = 16) :
    verifyPassword scrypt password' (hashPassword scrypt password salt) = true ↔
      scrypt.derivePasswordKey password' salt = scrypt.derivePasswordKey password salt := by
  have hsaltNe : salt ≠ [] := by
    rintro rfl
    cases hsalt
  have hlength : (scrypt.derivePasswordKey password salt).length = 32 := scrypt.length_derive _ _
  have hn : parseInteger "16384".toList = some 16384 := by decide
  have hr : parseInteger "8".toList = some 8 := by decide
  have hp : parseInteger "1".toList = some 1 := by decide
  have hdklen : parseInteger "32".toList = some 32 := by decide
  unfold verifyPassword checkPassword
  rw [splitOn_hashPassword]
  simp only [hashParameters, List.cons_append, List.nil_append, ne_eq, not_true_eq_false, if_false,
    hn, hr, hp, hdklen, bind, Option.bind, or_self, base64UrlsafeDecode_encode hsaltNe,
    base64UrlsafeDecode_encode (derivePasswordKey_ne_nil scrypt password salt), hsalt, hlength,
    Option.getD_some, decide_eq_true_eq]

/-- A key that is no secret. -/
def exampleScrypt : Scrypt where
  derive password salt := ((password ++ salt).take 32).rightpad 32 0
  length_derive password salt := by
    rw [List.length_rightpad, List.length_take]
    omega

theorem verifyPassword_hashPassword_ada :
    verifyPassword exampleScrypt ['A'] (hashPassword exampleScrypt ['a'] (List.replicate 16 0)) =
        true ↔
      exampleScrypt.derivePasswordKey ['A'] (List.replicate 16 0) =
        exampleScrypt.derivePasswordKey ['a'] (List.replicate 16 0) :=
  verifyPassword_hashPassword exampleScrypt ['a'] ['A'] (List.length_replicate ..)

/-- **Two hashes** are equal only for one salt and one key. -/
theorem hashPassword_inj (scrypt : Scrypt) (password password' : List Char)
    (salt salt' : List UInt8) :
    hashPassword scrypt password salt = hashPassword scrypt password' salt' ↔
      salt = salt' ∧ scrypt.derivePasswordKey password salt =
        scrypt.derivePasswordKey password' salt' := by
  constructor
  · intro h
    have hparts := congrArg (List.splitOn '$') h
    rw [splitOn_hashPassword, splitOn_hashPassword] at hparts
    have hlast := List.append_cancel_left hparts
    simp only [List.cons.injEq, and_true, base64UrlsafeEncode_eq] at hlast
    exact ⟨Base64.encode_injective urlsafe hlast.1, Base64.encode_injective urlsafe hlast.2⟩
  · rintro ⟨rfl, hkey⟩
    rw [hashPassword, hashPassword, hkey]

end Auth

end Portex
