import WriteonceOs.Boot.CmdLine

/-!
# The initramfs on the kernel command line

The EFI stub of the kernel takes the initramfs from a word that begins with `initrd=`.  The
bootloader appends that word unless the text `initrd=` occurs anywhere on the line.

* `HandsOver` — such a word is there, the words of the file are kept, and nothing is appended to
  a finished line;
* `fullCmdline_words`, `fullCmdline_idem` — the last two hold of every file;
* `handsOver_iff` — the first one needs an occurrence of `initrd=` to be the start of a word.
-/

namespace WriteonceOs.Boot

open WriteonceOs.Library

/-- What the bootloader cuts off the end of the file. -/
def isLineEnd (c : Char) : Bool := c == '\r' || c == '\n' || c == '\x00'

/-- What is appended. -/
def initrdWord : Text := "initrd=\\".toList ++ initrdPath

/-- **The initramfs is handed over**, and the line keeps the words of its file. -/
structure HandsOver (text : Text) : Prop where
  initrd : ∃ w ∈ words Svc.isWhitespace (fullCmdline (fileBytes text)), "initrd=".toList <+: w
  kept : words Svc.isWhitespace (trimEnd isLineEnd text) <+:
    words Svc.isWhitespace (fullCmdline (fileBytes text))
  stable : fullCmdline (fileBytes (fullCmdline (fileBytes text))) = fullCmdline (fileBytes text)

theorem fullCmdline_fileBytes (text : Text) :
    fullCmdline (fileBytes text) =
      if "initrd=".toList <:+: trimEnd isLineEnd text then trimEnd isLineEnd text
      else trimEnd isLineEnd text ++ ' ' :: initrdWord := by
  unfold fullCmdline
  rw [fromUTF8_fileBytes, Option.getD_some, String.toList_ofList]
  dsimp only
  rw [List.append_assoc]
  rfl

theorem initrd_prefix_initrdWord : "initrd=".toList <+: initrdWord :=
  ⟨'\\' :: initrdPath, by decide⟩

theorem words_append_initrdWord (text : Text) :
    words Svc.isWhitespace (text ++ ' ' :: initrdWord) =
      words Svc.isWhitespace text ++ [initrdWord] := by
  have hword : words Svc.isWhitespace initrdWord = [initrdWord] :=
    words_of_free (free_of_all (by decide)) (by decide)
  rw [words_append_separator rfl, hword]

theorem fullCmdline_words (text : Text) :
    words Svc.isWhitespace (trimEnd isLineEnd text) <+:
      words Svc.isWhitespace (fullCmdline (fileBytes text)) := by
  rw [fullCmdline_fileBytes]
  split
  · exact List.prefix_refl _
  · rw [words_append_initrdWord]
    exact List.prefix_append _ _

/-- A line with the text `initrd=` and no line end behind it is left as it is. -/
theorem fullCmdline_eq_self {line : Text} (hinitrd : "initrd=".toList <:+: line)
    (htrim : trimEnd isLineEnd line = line) : fullCmdline (fileBytes line) = line := by
  rw [fullCmdline_fileBytes, htrim, if_pos hinitrd]

theorem fullCmdline_idem (text : Text) :
    fullCmdline (fileBytes (fullCmdline (fileBytes text))) = fullCmdline (fileBytes text) := by
  apply fullCmdline_eq_self
  · rw [fullCmdline_fileBytes]
    split
    · assumption
    · have hword := initrd_prefix_initrdWord.isInfix.trans (List.suffix_cons ' ' _).isInfix
      exact hword.trans (List.suffix_append _ _).isInfix
  · rw [fullCmdline_fileBytes]
    split
    · exact trimEnd_trimEnd _ _
    · -- the appended word ends in a letter
      have hword : ' ' :: initrdWord =
          " initrd=\\EFI\\WriteOnce\\initramfs.im".toList ++ ['g'] := by
        decide
      have hletter : ¬ isLineEnd 'g' = true := by decide
      rw [hword, ← List.append_assoc, trimEnd_concat, if_neg hletter]

theorem startsWord_trimEnd (text : Text) :
    StartsWord Svc.isWhitespace "initrd=".toList (trimEnd isLineEnd text) ↔
      StartsWord Svc.isWhitespace "initrd=".toList text := by
  have hend : isLineEnd '=' = false := by decide
  have hprefix : "initrd=".toList <+: trimEnd isLineEnd text ↔ "initrd=".toList <+: text :=
    prefix_trimEnd (q := "initrd".toList) hend
  have hinfix : ∀ c : Char, c :: "initrd=".toList <:+: trimEnd isLineEnd text ↔
      c :: "initrd=".toList <:+: text := fun c => infix_trimEnd (q := c :: "initrd".toList) hend
  exact or_congr hprefix (exists_congr fun c => and_congr_right fun _ => hinfix c)

/-- **When the initramfs is handed over**: the text `initrd=` is not in the file, or it starts one
of the words. -/
theorem handsOver_iff (text : Text) :
    HandsOver text ↔
      ("initrd=".toList <:+: text → StartsWord Svc.isWhitespace "initrd=".toList text) := by
  have hend : isLineEnd '=' = false := by decide
  have hoccurs : "initrd=".toList <:+: trimEnd isLineEnd text ↔ "initrd=".toList <:+: text :=
    infix_trimEnd (q := "initrd".toList) hend
  have hfree : ∀ c ∈ "initrd=".toList, Svc.isWhitespace c = false := free_of_all (by decide)
  have hwords := exists_word_prefix hfree (by decide) (trimEnd isLineEnd text)
  rw [startsWord_trimEnd] at hwords
  have hinitrd : (∃ w ∈ words Svc.isWhitespace (fullCmdline (fileBytes text)),
      "initrd=".toList <+: w) ↔
      ("initrd=".toList <:+: text → StartsWord Svc.isWhitespace "initrd=".toList text) := by
    rw [fullCmdline_fileBytes]
    split
    · rename_i hin
      rw [hwords]
      exact ⟨fun h _ => h, fun h => h (hoccurs.mp hin)⟩
    · rename_i hout
      have happended : ∃ w ∈ words Svc.isWhitespace
          (trimEnd isLineEnd text ++ ' ' :: initrdWord), "initrd=".toList <+: w := by
        rw [words_append_initrdWord]
        exact ⟨initrdWord, by simp, initrd_prefix_initrdWord⟩
      exact ⟨fun _ hin => absurd (hoccurs.mpr hin) hout, fun _ => happended⟩
  exact ⟨fun h => hinitrd.mp h.initrd,
    fun h => ⟨hinitrd.mpr h, fullCmdline_words text, fullCmdline_idem text⟩⟩

/-- A parameter whose name ends in `initrd` keeps the initramfs from the kernel. -/
theorem noinitrd_not_handsOver : ¬ HandsOver "root=/dev/sda2 noinitrd=1".toList := by
  intro h
  have hline : fullCmdline (fileBytes "root=/dev/sda2 noinitrd=1".toList) =
      "root=/dev/sda2 noinitrd=1".toList := by
    rw [fullCmdline_fileBytes]
    decide
  have hword := h.initrd
  rw [hline] at hword
  revert hword
  decide

end WriteonceOs.Boot
