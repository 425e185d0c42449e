import Mathlib.Algebra.Ring.Nat
import Mathlib.Tactic.Common
import Mathlib.Data.List.GetD

/-! The AEAD ChaCha20-Poly1305, on byte lists. Decryption undoes encryption: the keystream
is added twice, and the tag is computed from the same ciphertext. -/
namespace SvcAuth.ChaCha20Poly1305

section ChaCha20

def rotl (x n : UInt32) : UInt32 := (x <<< n) ||| (x >>> (32 - n))

def quarterRound (a b c d : UInt32) : UInt32 × UInt32 × UInt32 × UInt32 :=
  let a := a + b
  let d := rotl (d ^^^ a) 16
  let c := c + d
  let b := rotl (b ^^^ c) 12
  let a := a + b
  let d := rotl (d ^^^ a) 8
  let c := c + d
  let b := rotl (b ^^^ c) 7
  (a, b, c, d)

/-- A quarter round on four words of the state. -/
def quarterRoundAt (s : List UInt32) (i j k l : ℕ) : List UInt32 :=
  let (a, b, c, d) := quarterRound (s.getD i 0) (s.getD j 0) (s.getD k 0) (s.getD l 0)
  (((s.set i a).set j b).set k c).set l d

/-- The columns of the state, then its diagonals. -/
def doubleRound (s : List UInt32) : List UInt32 :=
  let s := quarterRoundAt s 0 4 8 12
  let s := quarterRoundAt s 1 5 9 13
  let s := quarterRoundAt s 2 6 10 14
  let s := quarterRoundAt s 3 7 11 15
  let s := quarterRoundAt s 0 5 10 15
  let s := quarterRoundAt s 1 6 11 12
  let s := quarterRoundAt s 2 7 8 13
  quarterRoundAt s 3 4 9 14

def rounds : ℕ → List UInt32 → List UInt32
  | 0, s => s
  | n + 1, s => rounds n (doubleRound s)

/-- Little-endian words. -/
def toWords : List UInt8 → List UInt32
  | a :: b :: c :: d :: rest =>
    (a.toUInt32 ||| (b.toUInt32 <<< 8) ||| (c.toUInt32 <<< 16) ||| (d.toUInt32 <<< 24)) ::
      toWords rest
  | _ => []

def fromWord (w : UInt32) : List UInt8 :=
  [w.toUInt8, (w >>> 8).toUInt8, (w >>> 16).toUInt8, (w >>> 24).toUInt8]

/-- "expand 32-byte k" -/
def constants : List UInt32 := [0x61707865, 0x3320646e, 0x79622d32, 0x6b206574]

def block (key nonce : List UInt8) (counter : ℕ) : List UInt8 :=
  let initial := constants ++ toWords key ++ [.ofNat counter] ++ toWords nonce
  (List.zipWith (· + ·) initial (rounds 10 initial)).flatMap fromWord

/-- The message with the keystream added, from block 1 on. -/
def addStream (key nonce message : List UInt8) : List UInt8 :=
  message.mapIdx fun i b => b ^^^ (block key nonce (1 + i / 64)).getD (i % 64) 0

theorem addStream_twice (key nonce message : List UInt8) :
    addStream key nonce (addStream key nonce message) = message := by
  apply List.ext_getElem
  · simp [addStream]
  · intro i _ _
    simp only [addStream, List.getElem_mapIdx]
    rw [UInt8.xor_assoc, UInt8.xor_self, UInt8.xor_zero]

end ChaCha20

section Poly1305

def fromLittle (bs : List UInt8) : ℕ := bs.foldr (fun b n => b.toNat + 256 * n) 0

/-- The low `width` bytes of a number. -/
def toLittle : ℕ → ℕ → List UInt8
  | 0, _ => []
  | width + 1, n => .ofNat (n % 256) :: toLittle width (n / 256)

theorem toLittle_length (width n : ℕ) : (toLittle width n).length = width := by
  induction width generalizing n with
  | zero => rfl
  | succ width ih => simp [toLittle, ih]

def clamp (r : ℕ) : ℕ := r &&& 0x0ffffffc0ffffffc0ffffffc0fffffff

/-- One more chunk of 16 bytes, or fewer at the end. -/
def absorb (r acc : ℕ) (chunk : List UInt8) : ℕ :=
  (acc + fromLittle chunk + 256 ^ chunk.length) * r % (2 ^ 130 - 5)

def chunks : ℕ → List UInt8 → List (List UInt8)
  | 0, _ => []
  | n + 1, bs => bs.take 16 :: chunks n (bs.drop 16)

def poly1305 (key message : List UInt8) : List UInt8 :=
  let r := clamp (fromLittle (key.take 16))
  let acc := (chunks ((message.length + 15) / 16) message).foldl (absorb r) 0
  toLittle 16 (acc + fromLittle (key.drop 16))

end Poly1305

section Aead

/-- Zeros up to a multiple of 16 bytes. -/
def padded (bs : List UInt8) : List UInt8 :=
  bs ++ List.replicate ((16 - bs.length % 16) % 16) 0

def tag (key nonce aad ciphertext : List UInt8) : List UInt8 :=
  poly1305 ((block key nonce 0).take 32)
    (padded aad ++ padded ciphertext ++ toLittle 8 aad.length ++ toLittle 8 ciphertext.length)

theorem tag_length (key nonce aad ciphertext : List UInt8) :
    (tag key nonce aad ciphertext).length = 16 := toLittle_length _ _

def encrypt (key nonce aad message : List UInt8) : List UInt8 :=
  let ciphertext := addStream key nonce message
  ciphertext ++ tag key nonce aad ciphertext

def decrypt (key nonce aad sealed : List UInt8) : Option (List UInt8) :=
  if sealed.length < 16 then none
  else
    let ciphertext := sealed.take (sealed.length - 16)
    if sealed.drop (sealed.length - 16) = tag key nonce aad ciphertext then
      some (addStream key nonce ciphertext)
    else none

theorem decrypt_encrypt (key nonce aad message : List UInt8) :
    decrypt key nonce aad (encrypt key nonce aad message) = some message := by
  let ciphertext := addStream key nonce message
  have hlength : (encrypt key nonce aad message).length = ciphertext.length + 16 := by
    simp [encrypt, tag_length, ciphertext]
  have htake : (encrypt key nonce aad message).take ciphertext.length = ciphertext :=
    List.take_left
  have hdrop : (encrypt key nonce aad message).drop ciphertext.length =
      tag key nonce aad ciphertext := List.drop_left
  unfold decrypt
  rw [if_neg (by omega), hlength, Nat.add_sub_cancel, htake, hdrop, if_pos rfl]
  rw [addStream_twice]

end Aead

end SvcAuth.ChaCha20Poly1305
