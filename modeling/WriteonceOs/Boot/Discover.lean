import WriteonceOs.Boot.CmdLine

/-!
# The root device

The block devices are a listing of `/sys/class/block` with what reading each of them gives.  An
ext superblock is the second KiB of a device: the magic at offset 56, the filesystem's UUID at
offset 104.

* `uuidText_inj` — two UUIDs have different texts;
* `readExt4Uuid_eq_some_iff` — the devices whose UUID has a given text;
* `locate_uuid_iff` — what the search for a UUID returns.
-/

namespace WriteonceOs.Boot

open WriteonceOs.Library

/-! ### UUIDs and their texts -/

abbrev Uuid := Vector UInt8 16

/-- `{:02x}`. -/
def hex2 (b : UInt8) : Text := [Nat.digitChar (b.toNat / 16), Nat.digitChar (b.toNat % 16)]

/-- Cut a text into groups with dashes between them. -/
def grouped : List ℕ → Text → Text
  | [], cs => cs
  | n :: ns, cs => cs.take n ++ '-' :: grouped ns (cs.drop n)

/-- The lowercase 8-4-4-4-12 text. -/
def uuidText (u : Uuid) : Text := grouped [8, 4, 4, 4] (u.toList.flatMap hex2)

example : uuidText (Vector.ofFn fun i => UInt8.ofNat (17 * i)) =
    "00112233-4455-6677-8899-aabbccddeeff".toList := by decide

theorem digitChar_inj {m n : ℕ} (hm : m < 16) (hn : n < 16)
    (h : Nat.digitChar m = Nat.digitChar n) : m = n := by
  revert h
  have hall : ∀ m n : Fin 16, Nat.digitChar m = Nat.digitChar n → m = n := by decide
  intro h
  exact congrArg Fin.val (hall ⟨m, hm⟩ ⟨n, hn⟩ h)

theorem hex2_inj {a b : UInt8} (h : hex2 a = hex2 b) : a = b := by
  rw [hex2, hex2, List.cons.injEq, List.cons.injEq] at h
  have ha := a.toNat_lt
  have hb := b.toNat_lt
  have hhigh := digitChar_inj (by omega) (by omega) h.1
  have hlow := digitChar_inj (by omega) (by omega) h.2.1
  exact UInt8.toNat_inj.mp (by omega)

theorem grouped_inj {ns : List ℕ} {cs ds : Text} (hlen : cs.length = ds.length)
    (h : grouped ns cs = grouped ns ds) : cs = ds := by
  induction ns generalizing cs ds with
  | nil => exact h
  | cons n ns ih =>
    obtain ⟨htake, hrest⟩ := List.append_inj h (by simp [hlen])
    have hdrop := ih (by simp [hlen]) (List.cons.inj hrest).2
    rw [← List.take_append_drop n cs, htake, hdrop, List.take_append_drop]

theorem mem_grouped {ns : List ℕ} {cs : Text} {c : Char} (h : c ∈ grouped ns cs) :
    c = '-' ∨ c ∈ cs := by
  induction ns generalizing cs with
  | nil => exact Or.inr h
  | cons n ns ih =>
    rcases List.mem_append.mp h with h | h
    · exact Or.inr (List.mem_of_mem_take h)
    · rcases List.mem_cons.mp h with h | h
      · exact Or.inl h
      · exact (ih h).imp_right List.mem_of_mem_drop

theorem flatMap_hex2_inj {as bs : List UInt8} (hlen : as.length = bs.length)
    (h : as.flatMap hex2 = bs.flatMap hex2) : as = bs := by
  induction as generalizing bs with
  | nil => exact (List.eq_nil_of_length_eq_zero hlen.symm).symm
  | cons a as ih =>
    cases bs with
    | nil => cases hlen
    | cons b bs =>
      rw [List.flatMap_cons, List.flatMap_cons] at h
      obtain ⟨hhead, htail⟩ := List.append_inj h rfl
      rw [hex2_inj hhead, ih (Nat.succ.inj hlen) htail]

theorem length_flatMap_hex2 (as : List UInt8) : (as.flatMap hex2).length = 2 * as.length := by
  induction as with
  | nil => rfl
  | cons a as ih =>
    rw [List.flatMap_cons, List.length_append, ih, List.length_cons, hex2]
    simp only [List.length_cons, List.length_nil]
    omega

/-- **Two UUIDs have different texts.** -/
theorem uuidText_inj {u v : Uuid} (h : uuidText u = uuidText v) : u = v := by
  have hbytes : u.toList.length = v.toList.length := by simp
  have hlen : (u.toList.flatMap hex2).length = (v.toList.flatMap hex2).length := by
    rw [length_flatMap_hex2, length_flatMap_hex2, hbytes]
  exact Vector.toList_inj.mp (flatMap_hex2_inj hbytes (grouped_inj hlen h))

/-- The characters of a UUID's text. -/
theorem uuidText_chars {u : Uuid} {c : Char} (h : c ∈ uuidText u) :
    c = '-' ∨ ∃ d : Fin 16, c = Nat.digitChar d := by
  refine (mem_grouped h).imp_right fun hc => ?_
  obtain ⟨b, -, hb⟩ := List.mem_flatMap.mp hc
  have hlt := b.toNat_lt
  simp only [hex2, List.mem_cons, List.not_mem_nil, or_false] at hb
  rcases hb with rfl | rfl
  · exact ⟨⟨b.toNat / 16, by omega⟩, rfl⟩
  · exact ⟨⟨b.toNat % 16, by omega⟩, rfl⟩

/-- The text of a UUID fills a template. -/
theorem fills_uuidText (u : Uuid) : Fills (uuidText u) := by
  have hdash : Svc.isWhitespace '-' = false ∧ '-' ∉ "root=".toList := by decide
  have hdigit : ∀ d : Fin 16, Svc.isWhitespace (Nat.digitChar d) = false ∧
      Nat.digitChar d ∉ "root=".toList := by decide
  have hchar : ∀ c ∈ uuidText u, Svc.isWhitespace c = false ∧ c ∉ "root=".toList := by
    intro c hc
    rcases uuidText_chars hc with rfl | ⟨d, rfl⟩
    · exact hdash
    · exact hdigit d
  have hne : uuidText u ≠ [] := by simp [uuidText, grouped]
  obtain ⟨c, rest, heq⟩ := List.exists_cons_of_ne_nil hne
  exact ⟨fun c hc => (hchar c hc).1, c, rest, heq, (hchar c (heq ▸ List.mem_cons_self)).2⟩

/-! ### Devices -/

/-- An entry of `/sys/class/block`: its UUID file, and what `/dev` holds under its name. -/
structure BlockEntry where
  name : Text
  uuidFile : Option Text
  devExists : Bool
  -- the bytes of the device, if it can be opened
  content : Option (List UInt8)
  deriving DecidableEq, Repr

def BlockEntry.dev (e : BlockEntry) : Text := "/dev/".toList ++ e.name

/-- What the system shows of its devices. -/
structure Devices where
  classBlock : Except Svc.IoError (List (Except Svc.IoError BlockEntry))
  pathExists : Text → Bool

inductive DiscoverError where
  | unsupported (s : Text)
  | notFound (s : Text)
  | io (e : Svc.IoError)
  deriving DecidableEq, Repr

/-- The superblock of an ext filesystem, whole. -/
def readExt4Superblock (e : BlockEntry) : Option (List UInt8) :=
  match e.content with
  | none => none
  | some bytes =>
    let buf := (bytes.drop 1024).take 1024
    if buf.length < 1024 then none
    else if (buf.getD 56 0).toNat + 256 * (buf.getD 57 0).toNat ≠ 0xEF53 then none
    else some buf

def readExt4Label (e : BlockEntry) : Option Text :=
  match readExt4Superblock e with
  | none => none
  | some buf =>
    match String.fromUTF8? (((buf.drop 120).take 16).takeWhile (· ≠ 0)).toByteArray with
    | none => none
    | some label => if label.isEmpty then none else some label.toList

def readExt4Uuid (e : BlockEntry) : Option Text :=
  match readExt4Superblock e with
  | none => none
  | some buf => some (uuidText (Vector.ofFn fun i => buf.getD (104 + i) 0))

/-- The entries with a device, if all of them can be read. -/
def candidates : List (Except Svc.IoError BlockEntry) → Except DiscoverError (List BlockEntry)
  | [] => .ok []
  | .error e :: _ => .error (.io e)
  | .ok entry :: rest =>
    match candidates rest with
    | .error e => .error e
    | .ok devs => .ok (if entry.devExists then entry :: devs else devs)

def candidateBlockDevices (sys : Devices) : Except DiscoverError (List BlockEntry) :=
  match sys.classBlock with
  | .error e => .error (.io e)
  | .ok entries => candidates entries

def toAsciiLowercase (t : Text) : Text := t.map Char.toLower

/-- The first entry with a partition UUID, by its file. -/
def locatePartUuid (uuid : Text) :
    List (Except Svc.IoError BlockEntry) → Except DiscoverError Text
  | [] => .error (.notFound uuid)
  | .error e :: _ => .error (.io e)
  | .ok entry :: rest =>
    match entry.uuidFile with
    | none => locatePartUuid uuid rest
    | some body =>
      if toAsciiLowercase (Svc.trim body) = toAsciiLowercase uuid ∧ entry.devExists then
        .ok entry.dev
      else locatePartUuid uuid rest

/-- The first candidate of which `read` finds what is wanted. -/
def locateBy (sys : Devices) (read : BlockEntry → Option Text) (want missing : Text) :
    Except DiscoverError Text :=
  match candidateBlockDevices sys with
  | .error e => .error e
  | .ok devs =>
    match devs.find? (fun e => read e = some want) with
    | none => .error (.notFound missing)
    | some e => .ok e.dev

def locateRootOnce (sys : Devices) : RootSpec → Except DiscoverError Text
  | .device p => if sys.pathExists p then .ok p else .error (.notFound p)
  | .partUuid uuid =>
    match sys.classBlock with
    | .error e => .error (.io e)
    | .ok entries => locatePartUuid uuid entries
  | .label label => locateBy sys readExt4Label label ("LABEL=".toList ++ label)
  | .uuid uuid => locateBy sys readExt4Uuid (toAsciiLowercase uuid) ("UUID=".toList ++ uuid)

/-! ### What the search returns -/

/-- The bytes of the device carry the ext magic and the UUID. -/
def CarriesRoot (b : Uuid) (e : BlockEntry) : Prop :=
  ∃ bytes, e.content = some bytes ∧ bytes[1080]? = some 0x53 ∧ bytes[1081]? = some 0xEF ∧
    ∀ i : Fin 16, bytes[1128 + i.1]? = some b[i]

/-- The device can be read to the end of the superblock. -/
def WholeSuperblock (e : BlockEntry) : Prop :=
  ∃ bytes, e.content = some bytes ∧ 2048 ≤ bytes.length

/-- The magic, least byte first. -/
theorem magic_iff (lo hi : UInt8) : lo.toNat + 256 * hi.toNat = 0xEF53 ↔ lo = 0x53 ∧ hi = 0xEF := by
  have hlo := lo.toNat_lt
  constructor
  · intro h
    exact ⟨UInt8.toNat_inj.mp (show lo.toNat = 83 by omega),
      UInt8.toNat_inj.mp (show hi.toNat = 239 by omega)⟩
  · intro h
    rw [h.1, h.2]
    rfl

/-- A byte of the superblock is a byte of the device. -/
theorem superblock_getD {bytes : List UInt8} (hlen : 2048 ≤ bytes.length) {k : ℕ} (hk : k < 1024)
    (v : UInt8) : ((bytes.drop 1024).take 1024).getD k 0 = v ↔ bytes[1024 + k]? = some v := by
  have hbuf : ((bytes.drop 1024).take 1024)[k]? = bytes[1024 + k]? := by
    rw [List.getElem?_take_of_lt hk, List.getElem?_drop]
  rw [List.getD_eq_getElem?_getD, hbuf, List.getElem?_eq_getElem (by omega), Option.getD_some,
    Option.some.injEq]

/-- **The devices whose UUID has a given text.** -/
theorem readExt4Uuid_eq_some_iff {b : Uuid} {e : BlockEntry} :
    readExt4Uuid e = some (uuidText b) ↔ CarriesRoot b e ∧ WholeSuperblock e := by
  unfold readExt4Uuid readExt4Superblock CarriesRoot WholeSuperblock
  cases e.content with
  | none => simp
  | some bytes =>
    simp only [Option.some.injEq, exists_eq_left']
    by_cases hlen : 2048 ≤ bytes.length
    · have hbuf : ¬ ((bytes.drop 1024).take 1024).length < 1024 := by
        rw [List.length_take, List.length_drop]
        omega
      rw [if_neg hbuf]
      by_cases hmagic : (((bytes.drop 1024).take 1024).getD 56 0).toNat +
          256 * (((bytes.drop 1024).take 1024).getD 57 0).toNat = 0xEF53
      · rw [if_neg (not_not.mpr hmagic)]
        have hm := (magic_iff _ _).mp hmagic
        rw [superblock_getD hlen (by omega), superblock_getD hlen (by omega)] at hm
        simp only [Option.some.injEq, hm.1, hm.2, hlen, and_true, true_and]
        constructor
        · intro h i
          have hu := uuidText_inj h
          rw [← hu]
          have hi := (superblock_getD hlen (k := 104 + i.1) (by omega)
            (((bytes.drop 1024).take 1024).getD (104 + i.1) 0)).mp rfl
          rw [show 1128 + i.1 = 1024 + (104 + i.1) by omega, hi]
          simp
        · intro h
          congr 1
          ext i hi
          have hb := h ⟨i, hi⟩
          rw [show 1128 + i = 1024 + (104 + i) by omega,
            ← superblock_getD hlen (by omega)] at hb
          simpa using congrArg UInt8.toNat hb
      · rw [if_pos hmagic]
        simp only [reduceCtorEq, false_iff]
        intro h
        refine hmagic ((magic_iff _ _).mpr ⟨?_, ?_⟩)
        · exact (superblock_getD hlen (by omega) _).mpr h.1.1
        · exact (superblock_getD hlen (by omega) _).mpr h.1.2.1
    · have hbuf : ((bytes.drop 1024).take 1024).length < 1024 := by
        rw [List.length_take, List.length_drop]
        omega
      rw [if_pos hbuf]
      simp [hlen]

theorem toAsciiLowercase_uuidText (u : Uuid) : toAsciiLowercase (uuidText u) = uuidText u := by
  have hdigit : ∀ d : Fin 16, (Nat.digitChar d).toLower = Nat.digitChar d := by decide
  refine (List.map_congr_left fun c hc => ?_).trans (List.map_id _)
  rcases uuidText_chars hc with rfl | ⟨d, rfl⟩
  · rfl
  · exact hdigit d

/-- **The search for a UUID**: what it finds carries the UUID, and it finds something when a
candidate with a whole superblock does. -/
theorem locate_uuid (sys : Devices) (b : Uuid) {devs : List BlockEntry}
    (hdevs : candidateBlockDevices sys = .ok devs) :
    (∀ p, locateRootOnce sys (.uuid (uuidText b)) = .ok p →
      ∃ e ∈ devs, e.dev = p ∧ CarriesRoot b e ∧ WholeSuperblock e) ∧
    ((∃ e ∈ devs, CarriesRoot b e ∧ WholeSuperblock e) →
      ∃ p, locateRootOnce sys (.uuid (uuidText b)) = .ok p) := by
  simp only [locateRootOnce, locateBy, hdevs, toAsciiLowercase_uuidText]
  cases hfind : devs.find? (fun e => readExt4Uuid e = some (uuidText b)) with
  | none =>
    refine ⟨fun p h => (by cases h), fun h => ?_⟩
    obtain ⟨e, he, hb⟩ := h
    have hno := List.find?_eq_none.mp hfind e he
    exact absurd (decide_eq_true (readExt4Uuid_eq_some_iff.mpr hb)) hno
  | some e =>
    refine ⟨fun p h => ?_, fun _ => ⟨e.dev, rfl⟩⟩
    cases h
    have hread := List.find?_some hfind
    exact ⟨e, List.mem_of_find?_eq_some hfind, rfl,
      readExt4Uuid_eq_some_iff.mp (of_decide_eq_true hread)⟩

/-! ### From the template to the root device -/

/-- What the installer writes for a filesystem. -/
def installedCmdline (template : Text) (b : Uuid) : Text := formatCmdline template (uuidText b)

theorem installedCmdline_noNul {template : Text} (hnul : '\x00' ∉ template) (b : Uuid) :
    '\x00' ∉ installedCmdline template b := by
  intro h
  rcases mem_replaceFrom h with h | h
  · have hdigit : ∀ d : Fin 16, '\x00' ≠ Nat.digitChar d := by decide
    rcases uuidText_chars h with h | ⟨d, h⟩
    · exact absurd h (by decide)
    · exact hdigit d h
  · exact hnul h

/-- **From the template to the root device**: the bootloader's line parses as the installed one,
with the root device's UUID; no other UUID has its text; a search for it only returns a candidate
that carries the UUID, and returns one when a candidate with a whole superblock does. -/
theorem boot_pipeline {template : Text} (hnul : '\x00' ∉ template)
    (hlast : ((words Svc.isWhitespace template).filter ("root=".toList.isPrefixOf ·)).getLast? =
      some "root=UUID=__ROOT_UUID__".toList) (b : Uuid) :
    (parse (fullCmdline (fileBytes (installedCmdline template b)))).rootSpec =
        some (.uuid (uuidText b)) ∧
      parse (fullCmdline (fileBytes (installedCmdline template b))) =
        parse (installedCmdline template b) ∧
      (∀ b', uuidText b' = uuidText b → b' = b) ∧
      ∀ sys devs, candidateBlockDevices sys = .ok devs →
        (∀ p, locateRootOnce sys (.uuid (uuidText b)) = .ok p →
          ∃ e ∈ devs, e.dev = p ∧ CarriesRoot b e) ∧
        ((∃ e ∈ devs, CarriesRoot b e ∧ WholeSuperblock e) →
          ∃ p, locateRootOnce sys (.uuid (uuidText b)) = .ok p) := by
  have hparse := parse_fullCmdline (installedCmdline_noNul hnul b)
  refine ⟨?_, hparse, fun b' h => uuidText_inj h, fun sys devs hdevs => ?_⟩
  · rw [hparse]
    exact parse_formatCmdline_rootSpec (fills_uuidText b) hlast
  · obtain ⟨hsound, hcomplete⟩ := locate_uuid sys b hdevs
    refine ⟨fun p hp => ?_, hcomplete⟩
    obtain ⟨e, he, hdev, hcarries, -⟩ := hsound p hp
    exact ⟨e, he, hdev, hcarries⟩

def zeroUuid : Uuid := Vector.replicate 16 0

def loopEntry (content : List UInt8) : BlockEntry :=
  { name := "loop0".toList, uuidFile := none, devExists := true, content := some content }

theorem boot_pipeline_rw :
    (parse (fullCmdline (fileBytes
      (installedCmdline "root=UUID=__ROOT_UUID__ rw\n".toList zeroUuid)))).rootSpec =
        some (.uuid (uuidText zeroUuid)) :=
  (boot_pipeline (by decide) (by decide) zeroUuid).1

/-- Three sectors of a loop device, the magic and a UUID of zeros among them. -/
def shortContent : List UInt8 := List.replicate 1080 0 ++ ([0x53, 0xEF] ++ List.replicate 454 0)

/-- The device carries the UUID, but it ends before its superblock does. -/
theorem short_device_missed : CarriesRoot zeroUuid (loopEntry shortContent) ∧
    candidateBlockDevices ⟨.ok [.ok (loopEntry shortContent)], fun _ => true⟩ =
      .ok [loopEntry shortContent] ∧
    ∀ p, locateRootOnce ⟨.ok [.ok (loopEntry shortContent)], fun _ => true⟩
      (.uuid (uuidText zeroUuid)) ≠ .ok p := by
  have hat : ∀ k, shortContent[1080 + k]? = ([0x53, 0xEF] ++ List.replicate 454 0)[k]? := by
    intro k
    rw [shortContent, List.getElem?_append_right (by rw [List.length_replicate]; omega),
      List.length_replicate, Nat.add_sub_cancel_left]
  refine ⟨⟨shortContent, rfl, hat 0, hat 1, fun i => ?_⟩, rfl, fun p h => ?_⟩
  · have hlen : ([0x53, 0xEF] : List UInt8).length ≤ 48 + i.1 := by
      simp only [List.length_cons, List.length_nil]
      omega
    rw [show 1128 + i.1 = 1080 + (48 + i.1) by omega, hat, List.getElem?_append_right hlen,
      List.getElem?_replicate_of_lt (by simp only [List.length_cons, List.length_nil]; omega)]
    simp [zeroUuid]
  · obtain ⟨e, he, -, -, bytes, hbytes, hlen⟩ := (locate_uuid _ zeroUuid rfl).1 p h
    rw [List.mem_singleton.mp he] at hbytes
    cases hbytes
    rw [shortContent, List.length_append, List.length_append, List.length_replicate,
      List.length_replicate] at hlen
    exact absurd hlen (by decide)

end WriteonceOs.Boot
