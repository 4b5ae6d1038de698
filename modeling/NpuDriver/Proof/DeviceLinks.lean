import NpuDriver.Proof.BuildFlags
import NpuDriver.Proof.FoundDevices
import NpuDriver.Proof.HandleOwnership

/-! The address of a device as it is read out of the link in the file system. -/

namespace NpuDriver

open Library ZeResult

/-- A pattern with a last symbol that the back has not is found nowhere behind a front that has no such pattern. -/
theorem findText_append_none {pattern front back : List UInt8} {last : UInt8} (ends : pattern.getLast? = some last)
    (foreign : last ∉ back) (absent : findText pattern front = none) : findText pattern (front ++ back) = none := by
  have nowhere : ∀ text : List UInt8, last ∉ text → findText pattern text = none := by
    intro text missing
    induction text with
    | nil =>
      rw [findText, if_neg]
      rintro rfl
      cases ends
    | cons byte rest ih =>
      rw [findText, if_neg, ih fun inside => missing (List.mem_cons_of_mem _ inside)]
      · rfl
      · intro here
        exact missing (here.subset (List.mem_of_getLast? ends))
  induction front with
  | nil => exact nowhere back foreign
  | cons byte rest ih =>
    rw [findText] at absent
    split at absent
    · cases absent
    · rename_i different
      have later : findText pattern rest = none := by simpa using absent
      rw [List.cons_append, findText, if_neg, ih later]
      · rfl
      · rintro ⟨tail, same⟩
        rw [← List.cons_append] at same
        rcases List.append_eq_append_iff.mp same with ⟨more, whole, -⟩ | ⟨rest', split, behind⟩
        · exact different ⟨more, whole.symm⟩
        · rcases List.eq_nil_or_concat' rest' with rfl | ⟨inside, symbol, rfl⟩
          · exact different ⟨[], by rw [split, List.append_nil, List.append_nil]⟩
          · rw [split, ← List.append_assoc, List.getLast?_concat] at ends
            cases ends
            exact foreign (behind ▸ List.mem_append_left _ (List.mem_append_right _ List.mem_cons_self))

namespace VPUDevice

/-- The digits of `%0*x`. -/
def hexDigits (width number : Nat) : List UInt8 :=
  zeroPadded 16 width (fun digit => UInt8.ofNat digit.toNat) number

/-- The address as the kernel names the directory of a device. -/
def PciAddress.directory (address : PciAddress) : List UInt8 :=
  hexDigits 4 address.domain ++ (ascii ":" ++ (hexDigits 2 address.bus ++ (ascii ":" ++
    (hexDigits 2 address.device ++ (ascii "." ++ (hexDigits 1 address.function ++ ascii "/"))))))

/-- A function of a PCI device. -/
structure PciAddress.Valid (address : PciAddress) : Prop where
  bus : address.bus < 256
  device : address.device < 32
  function : address.function < 8

theorem charValue_digit : ∀ digit < 16, charValue (UInt8.ofNat (Nat.digitChar digit).toNat) = digit := by decide

theorem addressPart_eq {before middle after : List UInt8} {pos first last : Nat} (starts : pos - first = before.length)
    (ends : first - last = middle.length) :
    addressPart (before ++ (middle ++ after)) pos first last =
      ((fromChars 16 32 charValue middle).toOption).getD 0 := by
  rw [addressPart, starts, ends, List.drop_left', List.take_left']
  · rfl
  · rfl

theorem fromChars_hexDigits (width : Nat) {number : Nat} (fits : number < 2 ^ 32) :
    fromChars 16 32 charValue (hexDigits width number) = .ok number := by
  have read : fromChars 16 32 charValue (hexDigits width number ++ []) = .ok number :=
    fromChars_zeroPadded (by decide) charValue_digit width fits rfl
  rw [List.append_nil] at read
  exact read

/-- Only the last four digits of the domain are read. -/
theorem fromChars_domain (domain : Nat) :
    fromChars 16 32 charValue ((hexDigits 4 domain).drop ((hexDigits 4 domain).length - 4)) =
      .ok (domain % 2 ^ 16) :=
  fromChars_cut (by decide) charValue_digit (by decide) (by decide) (le_zeroPadded_length 4 domain)

theorem hexDigits_text (width number : Nat) : ∀ symbol ∈ hexDigits width number, charValue symbol < 16 :=
  zeroPadded_inside (by decide) charValue_digit width number

theorem hexDigits_length {width number : Nat} (positive : 0 < width) (fits : number < 16 ^ width) :
    (hexDigits width number).length = width := zeroPadded_length positive fits

variable {address : PciAddress}

/-- The directory holds neither the end of a text nor the last letter of the word behind it. -/
theorem PciAddress.directory_text (address : PciAddress) :
    ∀ symbol ∈ address.directory, symbol ≠ 0 ∧ symbol ≠ 108 := by
  have digit : ∀ {symbol : UInt8}, charValue symbol < 16 → symbol ≠ 0 ∧ symbol ≠ 108 := by
    intro symbol small
    constructor
    · rintro rfl
      exact absurd small (by decide)
    · rintro rfl
      exact absurd small (by decide)
  have mark : ∀ {text : List UInt8} {byte symbol : UInt8}, text = [byte] → byte ≠ 0 → byte ≠ 108 → symbol ∈ text →
      symbol ≠ 0 ∧ symbol ≠ 108 := by
    rintro text byte symbol rfl zero last member
    rw [List.mem_singleton.mp member]
    exact ⟨zero, last⟩
  have colon : ascii ":" = [58] := by decide
  have dot : ascii "." = [46] := by decide
  have slash : ascii "/" = [47] := by decide
  intro symbol member
  simp only [directory, List.mem_append] at member
  rcases member with inside | inside | inside | inside | inside | inside | inside | inside
  · exact digit (hexDigits_text _ _ symbol inside)
  · exact mark colon (by decide) (by decide) inside
  · exact digit (hexDigits_text _ _ symbol inside)
  · exact mark colon (by decide) (by decide) inside
  · exact digit (hexDigits_text _ _ symbol inside)
  · exact mark dot (by decide) (by decide) inside
  · exact digit (hexDigits_text _ _ symbol inside)
  · exact mark slash (by decide) (by decide) inside

theorem accel_unbordered : Unbordered (ascii "accel") := by
  have length : (ascii "accel").length = 5 := by decide
  intro count before positive
  rw [length] at before
  interval_cases count <;> decide

theorem PciAddress.Valid.lengths (valid : address.Valid) :
    (hexDigits 2 address.bus).length = 2 ∧ (hexDigits 2 address.device).length = 2 ∧
      (hexDigits 1 address.function).length = 1 := by
  obtain ⟨bus, device, function⟩ := valid
  refine ⟨hexDigits_length (by decide) bus, ?_, ?_⟩
  · exact hexDigits_length (by decide) (Nat.lt_trans device (by decide))
  · exact hexDigits_length (by decide) (Nat.lt_trans function (by decide))

/-- The numbers in front of the word, where it is found. -/
theorem addressPart_directory (valid : address.Valid) (front back : List UInt8) {pos : Nat}
    (stands : pos = front.length + (hexDigits 4 address.domain).length + 9) :
    addressPart (front ++ (address.directory ++ back)) pos 13 9 = address.domain % 2 ^ 16 ∧
      addressPart (front ++ (address.directory ++ back)) pos 8 6 = address.bus ∧
      addressPart (front ++ (address.directory ++ back)) pos 5 3 = address.device ∧
      addressPart (front ++ (address.directory ++ back)) pos 2 1 = address.function := by
  obtain ⟨bus, device, function⟩ := valid.lengths
  obtain ⟨busRange, deviceRange, functionRange⟩ := valid
  have long : 4 ≤ (hexDigits 4 address.domain).length := le_zeroPadded_length 4 address.domain
  have colon : (ascii ":").length = 1 := by decide
  have dot : (ascii ".").length = 1 := by decide
  have read := fromChars_domain address.domain
  rw [PciAddress.directory]
  generalize hexDigits 4 address.domain = domainDigits at stands long read ⊢
  refine ⟨?_, ?_, ?_, ?_⟩
  · have split : front ++ ((domainDigits ++ (ascii ":" ++ (hexDigits 2 address.bus ++ (ascii ":" ++
        (hexDigits 2 address.device ++ (ascii "." ++ (hexDigits 1 address.function ++ ascii "/"))))))) ++ back) =
      (front ++ domainDigits.take (domainDigits.length - 4)) ++ (domainDigits.drop (domainDigits.length - 4) ++
        (ascii ":" ++ (hexDigits 2 address.bus ++ (ascii ":" ++ (hexDigits 2 address.device ++ (ascii "." ++
          (hexDigits 1 address.function ++ (ascii "/" ++ back)))))))) := by
      rw [List.append_assoc front, ← List.append_assoc (domainDigits.take _), List.take_append_drop]
      simp only [List.append_assoc]
    rw [split, addressPart_eq, read]
    · rfl
    · rw [List.length_append, List.length_take]
      omega
    · rw [List.length_drop]
      omega
  · have split : front ++ ((domainDigits ++ (ascii ":" ++ (hexDigits 2 address.bus ++ (ascii ":" ++
        (hexDigits 2 address.device ++ (ascii "." ++ (hexDigits 1 address.function ++ ascii "/"))))))) ++ back) =
      (front ++ (domainDigits ++ ascii ":")) ++ (hexDigits 2 address.bus ++ (ascii ":" ++
        (hexDigits 2 address.device ++ (ascii "." ++ (hexDigits 1 address.function ++ (ascii "/" ++ back)))))) := by
      simp only [List.append_assoc]
    rw [split, addressPart_eq, fromChars_hexDigits 2 (by omega)]
    · rfl
    · simp only [List.length_append, colon]
      omega
    · rw [bus]
  · have split : front ++ ((domainDigits ++ (ascii ":" ++ (hexDigits 2 address.bus ++ (ascii ":" ++
        (hexDigits 2 address.device ++ (ascii "." ++ (hexDigits 1 address.function ++ ascii "/"))))))) ++ back) =
      (front ++ (domainDigits ++ (ascii ":" ++ (hexDigits 2 address.bus ++ ascii ":")))) ++
        (hexDigits 2 address.device ++ (ascii "." ++ (hexDigits 1 address.function ++ (ascii "/" ++ back)))) := by
      simp only [List.append_assoc]
    rw [split, addressPart_eq, fromChars_hexDigits 2 (by omega)]
    · rfl
    · simp only [List.length_append, colon, bus]
      omega
    · rw [device]
  · have split : front ++ ((domainDigits ++ (ascii ":" ++ (hexDigits 2 address.bus ++ (ascii ":" ++
        (hexDigits 2 address.device ++ (ascii "." ++ (hexDigits 1 address.function ++ ascii "/"))))))) ++ back) =
      (front ++ (domainDigits ++ (ascii ":" ++ (hexDigits 2 address.bus ++ (ascii ":" ++
        (hexDigits 2 address.device ++ ascii ".")))))) ++ (hexDigits 1 address.function ++ (ascii "/" ++ back)) := by
      simp only [List.append_assoc]
    rw [split, addressPart_eq, fromChars_hexDigits 1 (by omega)]
    · rfl
    · simp only [List.length_append, colon, dot, bus, device]
      omega
    · rw [function]

theorem directory_length (valid : address.Valid) :
    address.directory.length = (hexDigits 4 address.domain).length + 9 := by
  obtain ⟨bus, device, function⟩ := valid.lengths
  have colon : (ascii ":").length = 1 := by decide
  have dot : (ascii ".").length = 1 := by decide
  have slash : (ascii "/").length = 1 := by decide
  simp only [PciAddress.directory, List.length_append, bus, device, function, colon, dot, slash]

theorem linkAddress_directory (valid : address.Valid) {front : List UInt8}
    (plain : findText (ascii "accel") front = none) (back : List UInt8) :
    linkAddress (front ++ (address.directory ++ (ascii "accel" ++ back))) =
      some { address with domain := address.domain % 2 ^ 16 } := by
  have long : 4 ≤ (hexDigits 4 address.domain).length := le_zeroPadded_length 4 address.domain
  have absent : findText (ascii "accel") (front ++ address.directory) = none :=
    findText_append_none rfl (fun inside => (address.directory_text 108 inside).2 rfl) plain
  have found := findText_append accel_unbordered absent back
  rw [List.append_assoc, List.length_append, directory_length valid, ← Nat.add_assoc] at found
  have some : front ++ (address.directory ++ (ascii "accel" ++ back)) ≠ [] := by
    simp [ascii]
  obtain ⟨domain, bus, device, function⟩ := addressPart_directory valid front (ascii "accel" ++ back) rfl
  rw [linkAddress, if_neg some, found]
  dsimp only
  rw [if_neg (by omega), domain, bus, device, function]

/-- The link up to its word comes through the buffer of `getDeviceLink` as it is. -/
theorem getDeviceLink_kept {known : List UInt8} (short : known.length ≤ 255) (text : 0 ∉ known) (back : List UInt8) :
    ∃ rest, getDeviceLink true (some (known ++ back)) = known ++ rest := by
  refine ⟨(back.take (255 - known.length)).takeWhile (· ≠ 0), ?_⟩
  show ((known ++ back).take 255).takeWhile (· ≠ 0) = _
  rw [List.take_append, List.take_of_length_le short, List.takeWhile_append_of_pos]
  intro symbol member
  refine decide_eq_true ?_
  rintro rfl
  exact text member

end VPUDevice

namespace DevicesState

open VPUDevice

/-- A device tells the address under which the kernel has it, with the last sixteen bits of the domain: the right one
exactly when the domain has no more than these. -/
theorem pci_address_reported {address : PciAddress} (valid : address.Valid) {front : List UInt8}
    (plain : findText (ascii "accel") front = none) (text : 0 ∉ front)
    (short : (front ++ (address.directory ++ ascii "accel")).length ≤ 255) (back : List UInt8) {state : DevicesState}
    {device : Nat} (found : device < state.found.length) {file : FileReply} (usable : file.usable = true) :
    (state.step (.getPciProperties device file true
        (some (front ++ (address.directory ++ (ascii "accel" ++ back)))))).1 =
      .pciAddress { address with domain := address.domain % 2 ^ 16 } ∧
    ((state.step (.getPciProperties device file true
        (some (front ++ (address.directory ++ (ascii "accel" ++ back)))))).1 = .pciAddress address ↔
      address.domain < 2 ^ 16) := by
  have letters : (0 : UInt8) ∉ ascii "accel" := by decide
  have known : 0 ∉ front ++ (address.directory ++ ascii "accel") := by
    intro member
    rcases List.mem_append.mp member with inside | behind
    · exact text inside
    · rcases List.mem_append.mp behind with inside | inside
      · exact (address.directory_text 0 inside).1 rfl
      · exact letters inside
  obtain ⟨rest, kept⟩ := getDeviceLink_kept short known back
  simp only [List.append_assoc] at kept
  have reported : (state.step (.getPciProperties device file true
      (some (front ++ (address.directory ++ (ascii "accel" ++ back)))))).1 =
      .pciAddress { address with domain := address.domain % 2 ^ 16 } := by
    rw [DevicesState.step, DevicesState.withDevice, if_pos found, DevicesState.transient, getBDF, kept,
      linkAddress_directory valid plain]
    dsimp only
    rw [withDriverApi_fst, DeviceTable.whenUsable, if_pos usable]
  refine ⟨reported, ?_⟩
  rw [reported]
  constructor
  · intro same
    have domain := congrArg PciAddress.domain (DevicesAnswer.pciAddress.inj same)
    have below : address.domain % 2 ^ 16 < 2 ^ 16 := Nat.mod_lt _ (by decide)
    simp only at domain
    omega
  · intro small
    rw [Nat.mod_eq_of_lt small]

theorem pci_address_reported_first :
    (DevicesState.step ⟨⟨risingNumbers, 0, [], [], []⟩, some [⟨0, getHwInfo40xx, []⟩], []⟩
        (.getPciProperties 0 ⟨true, true, true, 1⟩ true
          (some (ascii "../../devices/pci0000:00/" ++ ((PciAddress.mk 0 0 11 0).directory ++
            (ascii "accel" ++ ascii "/accel0")))))).1 = .pciAddress ⟨0, 0, 11, 0⟩ ∧
      (PciAddress.mk 0 0 11 0).directory = ascii "0000:00:0b.0/" :=
  ⟨(pci_address_reported ⟨by decide, by decide, by decide⟩ (by decide +kernel) (by decide) (by decide +kernel) _
      (by decide) rfl).2.mpr (by decide), by decide +kernel⟩

/-- A device behind a bridge whose domain does not fit into sixteen bits. -/
example : linkAddress (ascii "../../devices/pci10000:e0/10000:e0:06.0/accel/accel0") = some ⟨0, 0xe0, 6, 0⟩ := by
  decide +kernel

end DevicesState

end NpuDriver
