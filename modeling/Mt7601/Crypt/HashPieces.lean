/-
# Every way of cutting a message, and HMAC

MD5, SHA-1 and SHA-256 of the driver on messages that come in pieces, and the HMAC over each, against
the standards. A piece is anything whose length is a `UINT`.

The digest is the standard's exactly when the pieces can be counted (`hashes_iff`): a piece that with
what the block holds of the ones before it comes to `2³²` octets is taken for one that fills no block,
and is copied past the block. An HMAC counts its message from a new block on, and is the standard's
for every key and every message.
-/
import Mt7601.Crypt.Md5Spec
import Mt7601.Crypt.Sha256

namespace Mt7601.Crypt

/-- The hash functions of the driver. -/
inductive HashAlgorithm
  | md5
  | sha1
  | sha256
  deriving DecidableEq

/-- What a `UINT` can count. -/
abbrev Piece : Type := { l : List UInt8 // l.length < 2 ^ 32 }

namespace HashAlgorithm

/-- `RT_MD5_Init`, `RT_MD5_Append` for each piece, `RT_MD5_End`, and so for the others. -/
def pieces : HashAlgorithm → List Piece → Checked (List UInt8)
  | .md5, l => md5Code.rtHashPieces (l.map Subtype.val)
  | .sha1, l => sha1Code.rtHashPieces (l.map Subtype.val)
  | .sha256, l => sha256Code.rtHashPieces (l.map Subtype.val)

/-- `RT_HMAC_MD5`, `RT_HMAC_SHA1`, `RT_HMAC_SHA256` -/
def hmac : HashAlgorithm → Piece → Piece → UInt32 → Checked (List UInt8)
  | .md5, key, message, macLen => md5Code.rtHmac key.1 message.1 macLen
  | .sha1, key, message, macLen => sha1Code.rtHmac key.1 message.1 macLen
  | .sha256, key, message, macLen => sha256Code.rtHmac key.1 message.1 macLen

/-- The function of the standard. -/
def standard : HashAlgorithm → List UInt8 → List UInt8
  | .md5 => Rfc1321.md5
  | .sha1 => Fips180.sha1
  | .sha256 => Fips180.Sha256.sha256

/-- **What the two are for**: the digest of the pieces is the hash of the whole message, and the code
of a message is HMAC over that hash, as much of it as was asked for. -/
structure Meets (alg : HashAlgorithm) (l : List Piece) (key message : Piece) (macLen : UInt32) :
    Prop where
  digest : alg.pieces l = .ok (alg.standard (l.map Subtype.val).flatten)
  mac : alg.hmac key message macLen =
    .ok ((Fips180.hmac alg.standard 64 key.1 message.1).take macLen.toNat)

end HashAlgorithm

section

variable {W V : Type} {code : HashCode W} {s : BlockHash V} {toSpec : W → V}

/-- A digest is given back when the pieces can be counted, and then it is the hash. -/
theorem HashCode.Implements.rtHashPieces_eq_ok (hcode : code.Implements s toSpec) (l : List Piece) :
    code.rtHashPieces (l.map Subtype.val) = .ok (s.hash (l.map Subtype.val).flatten) ↔
      PiecesFit 0 (l.map Subtype.val) := by
  have hpieces : ∀ piece ∈ l.map Subtype.val, piece.length < 2 ^ 32 := by
    intro piece hpiece
    obtain ⟨p, -, rfl⟩ := List.mem_map.mp hpiece
    exact p.2
  obtain ⟨hfit, hwrap⟩ := hcode.rtHashPieces_eq hpieces
  constructor
  · intro h
    by_contra hn
    rw [hwrap hn] at h
    exact nomatch h
  · exact hfit

end

/-- **A message in pieces is hashed as the standard says exactly when the pieces can be counted**, and
the HMAC is the standard's in any case. -/
theorem hashes_iff (alg : HashAlgorithm) (l : List Piece) (key message : Piece) (macLen : UInt32) :
    alg.Meets l key message macLen ↔ PiecesFit 0 (l.map Subtype.val) := by
  have hdigest : alg.pieces l = .ok (alg.standard (l.map Subtype.val).flatten) ↔
      PiecesFit 0 (l.map Subtype.val) := by
    cases alg with
    | md5 => exact md5Code_implements.rtHashPieces_eq_ok l
    | sha1 => exact sha1Code_implements.rtHashPieces_eq_ok l
    | sha256 => exact sha256Code_implements.rtHashPieces_eq_ok l
  have hmac : alg.hmac key message macLen =
      .ok ((Fips180.hmac alg.standard 64 key.1 message.1).take macLen.toNat) := by
    cases alg with
    | md5 => exact md5Code_implements.rtHmac_eq key.2 message.2 (by decide) macLen
    | sha1 => exact sha1Code_implements.rtHmac_eq key.2 message.2 (by decide) macLen
    | sha256 => exact sha256Code_implements.rtHmac_eq key.2 message.2 (by decide) macLen
  constructor
  · intro h
    exact hdigest.mp h.digest
  · intro h
    exact ⟨hdigest.mpr h, hmac⟩

namespace Example

/-- A piece of one octet, and one of as many octets as a `UINT` counts. -/
def octetAndMax : List Piece :=
  [⟨[0], by decide⟩, ⟨List.replicate (2 ^ 32 - 1) 0, by rw [List.length_replicate]; decide⟩]

end Example

theorem PiecesFit.second {a b : List UInt8} (h : PiecesFit 0 [a, b]) :
    a.length % 64 + b.length < 2 ^ 32 := by
  have hsecond := h.2.1
  rwa [Nat.zero_add] at hsecond

/-- The second piece, behind the octet the block has, comes to `2³²` octets. -/
theorem not_meets_octetAndMax : ¬ HashAlgorithm.Meets .md5 Example.octetAndMax ⟨[], by decide⟩
    ⟨[], by decide⟩ 16 := by
  intro h
  have hfit := (md5Code_implements.rtHashPieces_eq_ok Example.octetAndMax).mp h.digest
  have hlt := PiecesFit.second (a := [0]) (b := List.replicate (2 ^ 32 - 1) 0) hfit
  rw [List.length_replicate] at hlt
  exact absurd hlt (by decide)

end Mt7601.Crypt
