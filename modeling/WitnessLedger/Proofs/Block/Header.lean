import WitnessLedger.Block
import WitnessLedger.Proofs.Text.Numeral
import WitnessLedger.Text.Split

/-!
# Headers of blocks

The hash of a block covers its height, its root and the hash of the block before it, written into
one text.  The text can be read in only one way: the height has no colon, and a digest always takes
the same number of digits.

## Key results

- `headerBytes_inj`: headers with the same bytes are the same
-/

namespace WitnessLedger.Block

/-- The string whose digest is the hash of a block. -/
def headerBytes (b : Block) : List UInt8 :=
  Digest.taggedBytes Digest.blockTag (Text.bytes (headerText b.height b.merkleRoot b.prevHash))

theorem hash_eq (b : Block) : b.hash = Digest.sha256 b.headerBytes := rfl

theorem toList_headerText (height : Nat) (root prev : Digest) :
    (headerText height root prev).toList =
      Text.Numeral.digits height ++ ':' :: (root.hexCharacters ++ ':' :: prev.hexCharacters) := by
  simp [headerText, Text.Numeral.text, Digest.hex]

/-- The text of a header can be read in only one way. -/
theorem headerText_inj {height height' : Nat} {root root' prev prev' : Digest}
    (h : headerText height root prev = headerText height' root' prev') :
    height = height' ∧ root = root' ∧ prev = prev' := by
  have hchars := congrArg String.toList h
  rw [toList_headerText, toList_headerText] at hchars
  obtain ⟨hheight, hrest⟩ := Text.append_cons_inj (Text.Numeral.colon_notMem_digits height)
    (Text.Numeral.colon_notMem_digits height') hchars
  -- both roots have the same number of digits
  have hlength : root.hexCharacters.length = root'.hexCharacters.length := by
    rw [Digest.length_hexCharacters, Digest.length_hexCharacters]
  obtain ⟨hroot, hprev⟩ := List.append_inj hrest hlength
  rw [List.cons.injEq] at hprev
  exact ⟨Text.Numeral.digits_inj hheight, Digest.hexCharacters_inj hroot,
    Digest.hexCharacters_inj hprev.2⟩

/-- Headers with the same bytes are the same. -/
theorem headerBytes_inj {b b' : Block} (h : b.headerBytes = b'.headerBytes) :
    b.height = b'.height ∧ b.merkleRoot = b'.merkleRoot ∧ b.prevHash = b'.prevHash := by
  have hdata := List.append_cancel_left h
  rw [List.cons.injEq] at hdata
  exact headerText_inj (Text.bytes_inj.1 hdata.2)

end WitnessLedger.Block
