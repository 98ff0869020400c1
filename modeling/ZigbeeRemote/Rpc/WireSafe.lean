import ZigbeeRemote.Foundation.PackedLayout
import ZigbeeRemote.Rpc.Protocol
import Mathlib.Data.PNat.Basic

/-!
# The check on payload types

`wire_safe` of `zb_rpc_shared/include/zb_rpc/reflection.hpp` decides at compile time which types
`Engine::send` takes. `send` then writes the `sizeof(T)` bytes of the object as they are in memory.
They are meant to be the bytes of the object's `uint8_t`, `char`, `le16` and `le32` parts one after
the other, and nothing else.

`CppType` is the grammar of the types, with what the check sees of them and what it does not: the
members that its context cannot access, base classes, the pointer that virtual functions need,
bit-fields, alignment specifiers and classes without any data. How such a type is laid out is up to
the compiler. `Abi` is what is relied on: the leaves of an object are in it in declaration order,
anything else has a byte of its own, and a type of leaves has the size that `extent` says, by the
rules of the Itanium C++ ABI. There an empty base class or `[[no_unique_address]]` member takes no
room if it need not, and the padding at the end of a base class may be used for what comes next.

`wireSafe_sound_iff`: the check is sound for a type if and only if the type has something `Exposed`
to it that it rejects, or is made of leaves throughout, bases and inaccessible members included, and
is `unpadded`. The check looks at the accessible members only: `wireSafe_accepts_hidden_pointer`.
-/

set_option autoImplicit false
set_option relaxedAutoImplicit false

namespace ZigbeeRemote.Rpc.WireSafe

open Foundation

/-! ### Types and the check -/

/-- The types that may be on the wire. -/
inductive Leaf : Type
  | uint8
  | char
  | le16
  | le32
  deriving DecidableEq

def Leaf.size : Leaf → ℕ
  | .uint8 => 1
  | .char => 1
  | .le16 => 2
  | .le32 => 4

theorem Leaf.size_pos (leaf : Leaf) : 0 < leaf.size := by cases leaf <;> decide

/-- How a data member lies in its class. -/
inductive Storage : Type
  /-- An object of its own: whether it is `[[no_unique_address]]`, and its alignment specifier, 1 if it
  has none. -/
  | object (noUniqueAddress : Bool) (alignAs : ℕ+)
  | bitField (width : ℕ+)
  deriving DecidableEq

/-- How a part belongs to a class: as a base class, or as a data member that the check can access or
not. Unnamed bit-fields are no members. -/
inductive PartKind : Type
  | base
  | member (accessible : Bool) (storage : Storage)
  | unnamed (width : ℕ)
  deriving DecidableEq

/-- What a class has apart from its bases and members. -/
structure ClassInfo where
  /-- The class is the one of this number. `EmptyReq` is 0. -/
  name : ℕ
  /-- The compiler adds a pointer of its own, for virtual functions or virtual bases. -/
  hasVptr : Bool
  /-- The alignment specifier of the class, 1 if it has none. -/
  alignAs : ℕ+
  /-- It is a POD for the purpose of layout: padding at its end is not used for something else. -/
  isPod : Bool
  deriving DecidableEq

mutual

/-- A C++ type. -/
inductive CppType : Type
  | void
  | emptyReq
  | leaf (leaf : Leaf)
  /-- Any other arithmetic or enumeration type, of the given number of bytes. -/
  | host (size : ℕ+)
  /-- A pointer or a reference. -/
  | pointer
  | unionType (size : ℕ+)
  | arrayType (element : CppType) (extent : ℕ+)
  /-- A class other than `EmptyReq`, `le16` and `le32`, with its bases and data members in declaration
  order. -/
  | classType (info : ClassInfo) (parts : Parts)

/-- The bases and data members of a class. -/
inductive Parts : Type
  | nil
  | cons (kind : PartKind) (type : CppType) (rest : Parts)

end

mutual

/-- `wire_safe<T>()`. The members it visits are those that `nonstatic_data_members_of` lists. -/
def wireSafe : CppType → Bool
  | .void => true
  | .emptyReq => true
  | .leaf _ => true
  | .arrayType element _ => wireSafe element
  | .classType _ parts => wireSafeMembers parts
  | .host _ => false
  | .pointer => false
  | .unionType _ => false

/-- The loop of `wire_safe` over the members of a class. -/
def wireSafeMembers : Parts → Bool
  | .nil => true
  | .cons (.member true _) type rest => wireSafe type && wireSafeMembers rest
  | .cons _ _ rest => wireSafeMembers rest

end

/-- `std::meta::remove_all_extents`. -/
def removeAllExtents : CppType → CppType
  | .arrayType element _ => removeAllExtents element
  | type => type

/-- The check of an array is that of its element type without all its extents. -/
theorem wireSafe_removeAllExtents (type : CppType) : wireSafe (removeAllExtents type) = wireSafe type := by
  induction type using removeAllExtents.induct with
  | case1 element extent ih =>
    rw [removeAllExtents, ih]
    rfl
  | case2 type hother => rw [removeAllExtents]; exact hother

mutual

/-- Elements of arrays and members that the check can access lead from the type to a scalar that is no
leaf, or to a union. -/
inductive Exposed : CppType → Prop
  | host (size : ℕ+) : Exposed (.host size)
  | pointer : Exposed .pointer
  | unionType (size : ℕ+) : Exposed (.unionType size)
  | element {element : CppType} {extent : ℕ+} (helement : Exposed element) :
      Exposed (.arrayType element extent)
  | classType {info : ClassInfo} {parts : Parts} (hmember : ExposedMember parts) :
      Exposed (.classType info parts)

inductive ExposedMember : Parts → Prop
  | here {storage : Storage} {type : CppType} {rest : Parts} (htype : Exposed type) :
      ExposedMember (.cons (.member true storage) type rest)
  | later {kind : PartKind} {type : CppType} {rest : Parts} (hrest : ExposedMember rest) :
      ExposedMember (.cons kind type rest)

end

mutual

/-- The check finds what is exposed to it. -/
theorem wireSafe_of_not_exposed : ∀ type : CppType, ¬Exposed type → wireSafe type = true
  | .void, _ => rfl
  | .emptyReq, _ => rfl
  | .leaf _, _ => rfl
  | .host size, hexposed => absurd (.host size) hexposed
  | .pointer, hexposed => absurd .pointer hexposed
  | .unionType size, hexposed => absurd (.unionType size) hexposed
  | .arrayType element _, hexposed =>
    wireSafe_of_not_exposed element fun helement ↦ hexposed (.element helement)
  | .classType _ parts, hexposed =>
    wireSafeMembers_of_not_exposed parts fun hmember ↦ hexposed (.classType hmember)

theorem wireSafeMembers_of_not_exposed : ∀ parts : Parts, ¬ExposedMember parts →
    wireSafeMembers parts = true
  | .nil, _ => rfl
  | .cons (.member true _) type rest, hexposed => by
    rw [wireSafeMembers, Bool.and_eq_true]
    exact ⟨wireSafe_of_not_exposed type fun htype ↦ hexposed (.here htype),
      wireSafeMembers_of_not_exposed rest fun hrest ↦ hexposed (.later hrest)⟩
  | .cons (.member false _) _ rest, hexposed =>
    wireSafeMembers_of_not_exposed rest fun hrest ↦ hexposed (.later hrest)
  | .cons .base _ rest, hexposed =>
    wireSafeMembers_of_not_exposed rest fun hrest ↦ hexposed (.later hrest)
  | .cons (.unnamed _) _ rest, hexposed =>
    wireSafeMembers_of_not_exposed rest fun hrest ↦ hexposed (.later hrest)

end

mutual

/-- What the check accepts is not exposed to it. -/
theorem not_exposed_of_wireSafe : ∀ type : CppType, wireSafe type = true → ¬Exposed type
  | .arrayType element _, hsafe, .element helement =>
    not_exposed_of_wireSafe element hsafe helement
  | .classType _ parts, hsafe, .classType hmember =>
    not_exposedMember_of_wireSafe parts hsafe hmember

theorem not_exposedMember_of_wireSafe : ∀ parts : Parts, wireSafeMembers parts = true →
    ¬ExposedMember parts
  | .cons (.member true _) type _, hsafe, .here htype =>
    not_exposed_of_wireSafe type (Bool.and_eq_true_iff.mp hsafe).1 htype
  | .cons (.member true _) _ rest, hsafe, .later hrest =>
    not_exposedMember_of_wireSafe rest (Bool.and_eq_true_iff.mp hsafe).2 hrest
  | .cons (.member false _) _ rest, hsafe, .later hrest =>
    not_exposedMember_of_wireSafe rest hsafe hrest
  | .cons .base _ rest, hsafe, .later hrest => not_exposedMember_of_wireSafe rest hsafe hrest
  | .cons (.unnamed _) _ rest, hsafe, .later hrest => not_exposedMember_of_wireSafe rest hsafe hrest

end

theorem wireSafe_iff_not_exposed {type : CppType} : wireSafe type = true ↔ ¬Exposed type :=
  ⟨not_exposed_of_wireSafe type, wireSafe_of_not_exposed type⟩

/-! ### What a type consists of -/

/-- A bit-field that is a byte of the type. -/
def isWholeByte (width : ℕ+) : CppType → Bool
  | .leaf .uint8 => width = 8
  | .leaf .char => width = 8
  | _ => false

mutual

/-- The leaves of a type in declaration order, those in bases and inaccessible members included. -/
def leaves : CppType → List Leaf
  | .leaf leaf => [leaf]
  | .arrayType element extent => (List.replicate extent (leaves element)).flatten
  | .classType _ parts => leavesOfParts parts
  | _ => []

def leavesOfParts : Parts → List Leaf
  | .nil => []
  | .cons (.unnamed _) _ rest => leavesOfParts rest
  | .cons _ type rest => leaves type ++ leavesOfParts rest

end

/-- The number of bytes that leaves have together. -/
def leafTotal (list : List Leaf) : ℕ := (list.map Leaf.size).sum

@[simp] theorem leafTotal_append (first second : List Leaf) :
    leafTotal (first ++ second) = leafTotal first + leafTotal second := by
  rw [leafTotal, List.map_append, List.sum_append]
  rfl

theorem leafTotal_replicate (count : ℕ) (list : List Leaf) :
    leafTotal (List.replicate count list).flatten = count * leafTotal list := by
  induction count with
  | zero => rw [Nat.zero_mul]; rfl
  | succ count ih =>
    rw [List.replicate_succ, List.flatten_cons, leafTotal_append, ih, Nat.succ_mul, Nat.add_comm]

mutual

/-- The type has something in it that is not one of its leaves. -/
def foreign : CppType → Bool
  | .host _ => true
  | .pointer => true
  | .unionType _ => true
  | .arrayType element _ => foreign element
  | .classType info parts => info.hasVptr || foreignParts parts
  | _ => false

def foreignParts : Parts → Bool
  | .nil => false
  | .cons (.member _ (.bitField width)) type rest => !isWholeByte width type || foreignParts rest
  | .cons (.unnamed width) _ rest => width ≠ 0 || foreignParts rest
  | .cons (.member _ (.object _ _)) type rest => foreign type || foreignParts rest
  | .cons .base type rest => foreign type || foreignParts rest

end

def isClass : CppType → Bool
  | .emptyReq => true
  | .classType _ _ => true
  | _ => false

mutual

/-- A class without any data: `std::is_empty`. -/
def isEmpty : CppType → Bool
  | .emptyReq => true
  | .classType info parts => !info.hasVptr && emptyParts parts
  | _ => false

def emptyParts : Parts → Bool
  | .nil => true
  | .cons .base type rest => isEmpty type && emptyParts rest
  | .cons (.member _ (.object true _)) type rest => isEmpty type && emptyParts rest
  | .cons (.member _ (.object false _)) _ _ => false
  | .cons (.member _ (.bitField _)) _ _ => false
  | .cons (.unnamed width) _ rest => width = 0 && emptyParts rest

end

/-! ### Sizes -/

/-- How much room a type takes: the size of an object, and that of a base class or another object whose
padding may be used; and at which offsets it has empty classes in it, given by their names. -/
structure Extent where
  size : ℕ
  nvsize : ℕ
  align : ℕ+
  empties : List (ℕ × ℕ)

/-- How a part takes its room: an unnamed bit-field of width 0 ends at a boundary, an empty class lies
where there is no other one of the same name, anything else behind the data before it. The padding of
a part that may overlap with others is not part of its room. -/
inductive Slot : Type
  | boundary
  | empty
  | data (overlaps : Bool)
  deriving DecidableEq

def PartKind.slot (type : CppType) : PartKind → Slot
  | .unnamed _ => .boundary
  | .base => if isEmpty type then .empty else .data true
  | .member _ (.object true _) =>
    if isEmpty type then .empty else .data (isClass type)
  | .member _ (.object false _) => .data false
  | .member _ (.bitField _) => .data false

def PartKind.alignAs : PartKind → ℕ+
  | .member _ (.object _ align) => align
  | _ => 1

/-- What is laid out of a class: up to where there are data, and where its parts end. -/
structure Room where
  dsize : ℕ
  sizeof : ℕ
  align : ℕ+
  empties : List (ℕ × ℕ)

namespace Extent

/-- The empty classes of an object at the offset. -/
def emptiesAt (extent : Extent) (offset : ℕ) : List (ℕ × ℕ) :=
  extent.empties.map fun empty ↦ (offset + empty.1, empty.2)

/-- An array has its elements one after the other. -/
def array (count : ℕ) (element : Extent) : Extent where
  size := count * element.size
  nvsize := count * element.size
  align := element.align
  empties := (List.range count).flatMap fun index ↦ element.emptiesAt (index * element.size)

end Extent

namespace Room

/-- No two empty classes of the same name would be at the same address. -/
def admits (room : Room) (part : Extent) (offset : ℕ) : Bool :=
  (part.emptiesAt offset).all fun empty ↦ empty ∉ room.empties

/-- The first offset from the data on at which the part can lie. An offset that it cannot lie at has
one of the empty classes in the way, so that one of these candidates is free. -/
def offset (room : Room) (part : Extent) (align : ℕ+) : ℕ :=
  let start := roundUp room.dsize align
  let tries := room.empties.length * part.empties.length + 1
  (((List.range tries).map fun count ↦ start + count * align).find? (room.admits part)).getD start

def place (room : Room) (slot : Slot) (alignAs : ℕ+) (part : Extent) : Room :=
  let align := max part.align alignAs
  match slot with
  | .boundary =>
    let dsize := roundUp room.dsize part.align
    { room with dsize := dsize, sizeof := max room.sizeof dsize }
  | .empty =>
    let offset := if room.admits part 0 then 0 else room.offset part align
    { room with
      sizeof := max room.sizeof (offset + part.size)
      align := max room.align align
      empties := room.empties ++ part.emptiesAt offset }
  | .data overlaps =>
    let offset := room.offset part align
    let dsize := offset + if overlaps then part.nvsize else part.size
    { dsize := dsize
      sizeof := max room.sizeof dsize
      align := max room.align align
      empties := room.empties ++ part.emptiesAt offset }

/-- The class is complete. -/
def close (room : Room) (info : ClassInfo) (isEmpty : Bool) : Extent :=
  let size := roundUp (max 1 room.sizeof) room.align
  { size := size
    nvsize := if info.isPod then size else room.sizeof
    align := room.align
    empties := if isEmpty then (0, info.name) :: room.empties else room.empties }

/-- Nothing is laid out yet but the pointer of the compiler. -/
def start (info : ClassInfo) : Room where
  dsize := if info.hasVptr then 8 else 0
  sizeof := if info.hasVptr then 8 else 0
  align := if info.hasVptr then max 8 info.alignAs else info.alignAs
  empties := []

end Room

mutual

/-- The room of a type by the rules of the Itanium C++ ABI for a machine of 64 bits. Partial bit-fields
count as bytes. -/
def extent : CppType → Extent
  | .void => ⟨1, 1, 1, []⟩
  | .emptyReq => ⟨1, 1, 1, [(0, 0)]⟩
  | .leaf leaf => ⟨leaf.size, leaf.size, 1, []⟩
  | .host size => ⟨size, size, size, []⟩
  | .pointer => ⟨8, 8, 8, []⟩
  | .unionType size => ⟨size, size, 1, []⟩
  | .arrayType element count => .array count (extent element)
  | .classType info parts =>
    (fill parts (.start info)).close info (isEmpty (.classType info parts))

/-- The parts of a class are laid out one after the other. -/
def fill : Parts → Room → Room
  | .nil, room => room
  | .cons kind type rest, room => fill rest (room.place (kind.slot type) kind.alignAs (extent type))

end

/-! ### Types without padding -/

/-- There is no byte behind the data: no empty class that sticks out, and none for the alignment, unless
it is not part of the room anyway. -/
def Room.isFull (room : Room) (overlaps : Bool) : Bool :=
  room.sizeof = room.dsize &&
    (overlaps || decide (0 < room.dsize) && decide ((room.align : ℕ) ∣ room.dsize))

/-- The part begins where the data before it end. -/
def Room.isTight (room : Room) (slot : Slot) (alignAs : ℕ+) (part : Extent) : Bool :=
  match slot with
  | .boundary => (part.align : ℕ) ∣ room.dsize
  | .empty => true
  | .data _ => room.offset part (max part.align alignAs) = room.dsize

mutual

/-- There is no padding in a type of leaves: each part begins where the data before it end, and nothing
is behind the last one. -/
def unpadded (overlaps : Bool) : CppType → Bool
  | .leaf _ => true
  | .arrayType element _ => unpadded false element
  | .classType info parts =>
    unpaddedParts parts (.start info) &&
      (fill parts (.start info)).isFull (overlaps && !info.isPod)
  | _ => false

def unpaddedParts : Parts → Room → Bool
  | .nil, _ => true
  | .cons kind type rest, room =>
    room.isTight (kind.slot type) kind.alignAs (extent type) &&
      (match kind.slot type with
        | .data overlaps => unpadded overlaps type
        | _ => true) &&
      unpaddedParts rest (room.place (kind.slot type) kind.alignAs (extent type))

end

/-! ### Layout -/

/-- The fields of an object that has the given leaves at the given offsets. -/
def leafFields (placed : List (ℕ × Leaf)) : List (ℕ × ℕ) :=
  placed.map fun place ↦ (place.1, place.2.size)

/-- A compiler's layout of the types: their sizes, and where in an object its leaves are. -/
structure Abi where
  sizeof : CppType → ℕ
  placement : CppType → List (ℕ × Leaf)
  /-- Objects of leaves hold each of them, in declaration order and apart from each other. -/
  placement_leaves : ∀ type, foreign type = false → (placement type).map Prod.snd = leaves type
  placement_inOrder : ∀ type, foreign type = false →
    InOrder 0 (sizeof type) (leafFields (placement type))
  sizeof_eq : ∀ type, foreign type = false → sizeof type = (extent type).size
  /-- A scalar that is no leaf, a bit-field that is no byte and the compiler's own pointer have a byte
  that is part of no leaf. -/
  foreign_hasGap : ∀ type, foreign type = true →
    HasGap 0 (sizeof type) (leafFields (placement type))

variable (abi : Abi)

/-- What `Engine::send<T>` writes after the header for an object that is at address 0 of the memory.
-/
def sentPayload (type : CppType) (memory : ℕ → UInt8) : Bytes :=
  match type with
  | .emptyReq => []
  | type => bytesAt memory 0 (abi.sizeof type)

/-- Whatever is in memory, the bytes sent are those of the object's leaves, one after the other. -/
def SentAsLeaves (type : CppType) : Prop :=
  ∀ memory, sentPayload abi type memory = fieldBytes memory (leafFields (abi.placement type))

variable {abi}

theorem totalSize_leafFields (placed : List (ℕ × Leaf)) :
    totalSize (leafFields placed) = leafTotal (placed.map Prod.snd) := by
  simp [totalSize, leafFields, leafTotal, Function.comp_def]

/-! ### How much is padding -/

mutual

theorem leaves_of_isEmpty : ∀ {type : CppType}, isEmpty type = true → leaves type = []
  | .emptyReq, _ => rfl
  | .classType _ _, hempty => leavesOfParts_of_isEmpty (Bool.and_eq_true_iff.mp hempty).2

theorem leavesOfParts_of_isEmpty : ∀ {parts : Parts}, emptyParts parts = true →
    leavesOfParts parts = []
  | .nil, _ => rfl
  | .cons .base type rest, hempty => by
    obtain ⟨hfirst, hrest⟩ := Bool.and_eq_true_iff.mp hempty
    rw [leavesOfParts, leaves_of_isEmpty hfirst, leavesOfParts_of_isEmpty hrest]
    all_goals simp
  | .cons (.member _ (.object true _)) type rest, hempty => by
    obtain ⟨hfirst, hrest⟩ := Bool.and_eq_true_iff.mp hempty
    rw [leavesOfParts, leaves_of_isEmpty hfirst, leavesOfParts_of_isEmpty hrest]
    all_goals simp
  | .cons (.unnamed _) _ rest, hempty => by
    rw [leavesOfParts, leavesOfParts_of_isEmpty (Bool.and_eq_true_iff.mp hempty).2]

end

namespace Room

variable {room : Room} {part : Extent} {align : ℕ+}

theorem le_offset : room.dsize ≤ room.offset part align := by
  have hstart := le_roundUp room.dsize align
  rw [offset]
  cases hfind : ((List.range (room.empties.length * part.empties.length + 1)).map fun count ↦
      roundUp room.dsize align + count * align).find? (room.admits part) with
  | none => exact hstart
  | some found =>
    obtain ⟨count, -, rfl⟩ := List.mem_map.mp (List.mem_of_find?_eq_some hfind)
    exact hstart.trans (Nat.le_add_right _ _)

/-- What a class has behind its data. -/
theorem exists_tail (hsizeof : room.dsize ≤ room.sizeof) (info : ClassInfo)
    (isEmpty overlaps : Bool) :
    ∃ tail, room.dsize + tail =
        (if overlaps then (room.close info isEmpty).nvsize else (room.close info isEmpty).size) ∧
      (tail = 0 ↔ room.isFull (overlaps && !info.isPod) = true) := by
  have hround := le_roundUp (max 1 room.sizeof) room.align
  have hmax := Nat.le_max_right 1 room.sizeof
  have hone := Nat.le_max_left 1 room.sizeof
  have hwhole : room.sizeof = room.dsize → 0 < room.dsize →
      (roundUp (max 1 room.sizeof) room.align = room.dsize ↔ (room.align : ℕ) ∣ room.dsize) := by
    intro hsame hpos
    rw [hsame, Nat.max_eq_right hpos, roundUp_eq_self_iff]
  cases hopen : overlaps && !info.isPod with
  | true =>
    obtain ⟨hoverlaps, hpod⟩ := Bool.and_eq_true_iff.mp hopen
    rw [Bool.not_eq_true'] at hpod
    refine ⟨room.sizeof - room.dsize, ?_, ?_⟩
    · rw [if_pos hoverlaps, close, hpod]
      exact Nat.add_sub_cancel' hsizeof
    · rw [isFull, Bool.true_or, Bool.and_true, decide_eq_true_eq]
      omega
  | false =>
    have hroom : (if overlaps then (room.close info isEmpty).nvsize
        else (room.close info isEmpty).size) = roundUp (max 1 room.sizeof) room.align := by
      cases overlaps with
      | false => rfl
      | true =>
        have hpod : info.isPod = true := by simpa using hopen
        rw [if_pos rfl, close, if_pos hpod]
    refine ⟨roundUp (max 1 room.sizeof) room.align - room.dsize, ?_, ?_⟩
    · rw [hroom]
      omega
    · rw [isFull, Bool.false_or, Bool.and_eq_true, Bool.and_eq_true, decide_eq_true_eq,
        decide_eq_true_eq, decide_eq_true_eq]
      constructor
      · intro htail
        have hsame : room.sizeof = room.dsize := by omega
        have hpos : 0 < room.dsize := by omega
        exact ⟨hsame, hpos, (hwhole hsame hpos).mp (by omega)⟩
      · rintro ⟨hsame, hpos, hdivides⟩
        rw [(hwhole hsame hpos).mpr hdivides, Nat.sub_self]

end Room

/-- A part of a class without foreign parts: what it takes its room as, and the leaves it adds. -/
theorem slot_cases {kind : PartKind} {type : CppType} {rest : Parts}
    (hforeign : foreignParts (.cons kind type rest) = false) :
    foreignParts rest = false ∧
      ((kind.slot type = .boundary ∨ kind.slot type = .empty) ∧
          leavesOfParts (.cons kind type rest) = leavesOfParts rest ∨
        ∃ overlaps, kind.slot type = .data overlaps ∧ foreign type = false ∧
          leavesOfParts (.cons kind type rest) = leaves type ++ leavesOfParts rest) := by
  have hbyte {width : ℕ+} (hwhole : isWholeByte width type = true) : foreign type = false := by
    cases type with
    | leaf leaf => rfl
    | _ => simp [isWholeByte] at hwhole
  have hnone (hempty : isEmpty type = true) :
      leaves type ++ leavesOfParts rest = leavesOfParts rest := by
    rw [leaves_of_isEmpty hempty, List.nil_append]
  match kind, hforeign with
  | .unnamed width, hforeign =>
    exact ⟨(Bool.or_eq_false_iff.mp hforeign).2, Or.inl ⟨Or.inl rfl, rfl⟩⟩
  | .base, hforeign =>
    obtain ⟨hfirst, hrest⟩ := Bool.or_eq_false_iff.mp hforeign
    refine ⟨hrest, ?_⟩
    rw [PartKind.slot]
    cases hempty : isEmpty type with
    | true => exact Or.inl ⟨Or.inr rfl, hnone hempty⟩
    | false => exact Or.inr ⟨true, rfl, hfirst, rfl⟩
  | .member _ (.object true _), hforeign =>
    obtain ⟨hfirst, hrest⟩ := Bool.or_eq_false_iff.mp hforeign
    refine ⟨hrest, ?_⟩
    rw [PartKind.slot]
    cases hempty : isEmpty type with
    | true => exact Or.inl ⟨Or.inr rfl, hnone hempty⟩
    | false => exact Or.inr ⟨isClass type, rfl, hfirst, rfl⟩
  | .member _ (.object false _), hforeign =>
    obtain ⟨hfirst, hrest⟩ := Bool.or_eq_false_iff.mp hforeign
    exact ⟨hrest, Or.inr ⟨false, rfl, hfirst, rfl⟩⟩
  | .member _ (.bitField width), hforeign =>
    obtain ⟨hfirst, hrest⟩ := Bool.or_eq_false_iff.mp hforeign
    rw [Bool.not_eq_false'] at hfirst
    exact ⟨hrest, Or.inr ⟨false, rfl, hbyte hfirst, rfl⟩⟩

mutual

/-- A type of leaves has these in its room, and something beside them if it is not unpadded. -/
theorem exists_padding : ∀ (type : CppType) (overlaps : Bool), foreign type = false →
    ∃ padding, leafTotal (leaves type) + padding =
        (if overlaps then (extent type).nvsize else (extent type).size) ∧
      (padding = 0 ↔ unpadded overlaps type = true)
  | .void, overlaps, _ => ⟨1, by cases overlaps <;> rfl, by simp [unpadded]⟩
  | .emptyReq, overlaps, _ => ⟨1, by cases overlaps <;> rfl, by simp [unpadded]⟩
  | .leaf leaf, overlaps, _ => by
    refine ⟨0, ?_, by simp [unpadded]⟩
    cases overlaps <;> simp [extent, leaves, leafTotal]
  | .arrayType element count, overlaps, hforeign => by
    obtain ⟨padding, hroom, hpadding⟩ := exists_padding element false hforeign
    refine ⟨count * padding, ?_, ?_⟩
    · have hsize : leafTotal (leaves (.arrayType element count)) + count * padding =
          count * (extent element).size := by
        rw [leaves, leafTotal_replicate, ← Nat.mul_add, hroom, if_neg (by decide)]
      rw [hsize, extent]
      cases overlaps <;> rfl
    · rw [unpadded, ← hpadding, Nat.mul_eq_zero, or_iff_right count.ne_zero]
  | .classType info parts, overlaps, hforeign => by
    obtain ⟨hvptr, hparts⟩ := Bool.or_eq_false_iff.mp hforeign
    have hnone : (Room.start info).dsize = 0 := by simp [Room.start, hvptr]
    obtain ⟨padding, hdata, hpadding, hsizeof⟩ :=
      exists_paddingParts parts (.start info) 0 0 hparts (by rw [hnone]) (by simp [Room.start])
    obtain ⟨tail, hroom, htail⟩ :=
      Room.exists_tail hsizeof info (isEmpty (.classType info parts)) overlaps
    refine ⟨padding + tail, ?_, ?_⟩
    · rw [extent, ← hroom, ← hdata, leaves]
      omega
    · rw [unpadded, Bool.and_eq_true, ← htail, Nat.add_eq_zero_iff, hpadding, and_iff_right rfl]

/-- The same for the parts of a class, behind others that have `lead` bytes of leaves and `before` bytes
of padding. -/
theorem exists_paddingParts : ∀ (parts : Parts) (room : Room) (lead before : ℕ),
    foreignParts parts = false → lead + before = room.dsize → room.dsize ≤ room.sizeof →
    ∃ padding, lead + leafTotal (leavesOfParts parts) + padding = (fill parts room).dsize ∧
      (padding = 0 ↔ before = 0 ∧ unpaddedParts parts room = true) ∧
      (fill parts room).dsize ≤ (fill parts room).sizeof
  | .nil, room, lead, before, _, hdata, hsizeof =>
    ⟨before, hdata, by simp [unpaddedParts], hsizeof⟩
  | .cons kind type rest, room, lead, before, hforeign, hdata, hsizeof => by
    obtain ⟨hrest, ⟨hslot, hleaves⟩ | ⟨overlaps, hslot, hfirst, hleaves⟩⟩ := slot_cases hforeign
    · rw [fill, unpaddedParts, hleaves]
      rcases hslot with hslot | hslot
      · have hround := le_roundUp room.dsize (extent type).align
        obtain ⟨padding, hall, hpadding, hlater⟩ := exists_paddingParts rest
          (room.place .boundary kind.alignAs (extent type)) lead
          (before + (roundUp room.dsize (extent type).align - room.dsize)) hrest
          (by rw [Room.place]; dsimp only; omega) (Nat.le_max_right _ _)
        have htight : roundUp room.dsize (extent type).align - room.dsize = 0 ↔
            room.isTight .boundary kind.alignAs (extent type) = true := by
          rw [Room.isTight, decide_eq_true_eq, ← roundUp_eq_self_iff]
          omega
        rw [hslot]
        refine ⟨padding, hall, ?_, hlater⟩
        rw [hpadding, Nat.add_eq_zero_iff, htight]
        simp [and_assoc]
      · obtain ⟨padding, hall, hpadding, hlater⟩ := exists_paddingParts rest
          (room.place .empty kind.alignAs (extent type)) lead before hrest hdata
          (hsizeof.trans (Nat.le_max_left _ _))
        rw [hslot]
        refine ⟨padding, hall, ?_, hlater⟩
        rw [hpadding, Room.isTight]
        simp
    · obtain ⟨inner, hroom, hinner⟩ := exists_padding type overlaps hfirst
      have hoffset : room.dsize ≤ room.offset (extent type) (max (extent type).align kind.alignAs) :=
        Room.le_offset
      obtain ⟨padding, hall, hpadding, hlater⟩ := exists_paddingParts rest
        (room.place (.data overlaps) kind.alignAs (extent type)) (lead + leafTotal (leaves type))
        (before + (room.offset (extent type) (max (extent type).align kind.alignAs) - room.dsize) +
          inner) hrest (by rw [Room.place]; dsimp only; rw [← hroom]; omega) (Nat.le_max_right _ _)
      have htight : room.offset (extent type) (max (extent type).align kind.alignAs) - room.dsize = 0 ↔
          room.isTight (.data overlaps) kind.alignAs (extent type) = true := by
        rw [Room.isTight, decide_eq_true_eq]
        omega
      rw [fill, unpaddedParts, hleaves, hslot, leafTotal_append, ← Nat.add_assoc]
      refine ⟨padding, hall, ?_, hlater⟩
      rw [hpadding, Nat.add_eq_zero_iff, Nat.add_eq_zero_iff, htight, hinner]
      simp [and_assoc]

end

/-! ### When the check is sound -/

/-- A type of leaves only has no other byte exactly when it is unpadded.
Assumes: the type is not `EmptyReq`, of which `send` writes no byte. -/
theorem sentAsLeaves_iff {type : CppType} (hempty : type ≠ .emptyReq) :
    SentAsLeaves abi type ↔ foreign type = false ∧ unpadded false type = true := by
  have hsent : SentAsLeaves abi type ↔
      ∀ memory, bytesAt memory 0 (abi.sizeof type) =
        fieldBytes memory (leafFields (abi.placement type)) := by
    cases type <;> first | rfl | exact absurd rfl hempty
  cases hforeign : foreign type with
  | true =>
    refine iff_of_false (fun hleaves ↦ ?_) (by simp)
    exact absurd (hsent.mp hleaves) (abi.foreign_hasGap type hforeign).not_concatenation
  | false =>
    obtain ⟨padding, hroom, hpadding⟩ := exists_padding type false hforeign
    rw [if_neg (by decide)] at hroom
    rw [hsent, concatenation_iff (abi.placement_inOrder type hforeign), totalSize_leafFields,
      abi.placement_leaves type hforeign, abi.sizeof_eq type hforeign, ← hroom, ← hpadding,
      and_iff_right rfl]
    omega

/-- The check is sound for exactly those types that have something exposed to it which it rejects, and
those that are made of leaves throughout and have no padding. -/
theorem wireSafe_sound_iff (abi : Abi) (type : CppType) (hempty : type ≠ .emptyReq) :
    (wireSafe type = true → SentAsLeaves abi type) ↔
      Exposed type ∨ foreign type = false ∧ unpadded false type = true := by
  rw [sentAsLeaves_iff hempty, wireSafe_iff_not_exposed, ← or_iff_not_imp_left]

/-- A member that the check can access. -/
def publicMember : PartKind := .member true (.object false 1)

/-- A class that is a POD, without alignment specifiers. -/
def podClass (name : ℕ) (parts : Parts) : CppType := .classType ⟨name, false, 1, true⟩ parts

/-- `struct Empty {}; class C { [[no_unique_address]] Empty e; uint8_t x : 8; };` is accepted, and sent
as one byte. -/
example :
    let type := podClass 1 (.cons (.member false (.object true 1)) (podClass 2 .nil)
      (.cons (.member false (.bitField 8)) (.leaf .uint8) .nil))
    wireSafe type = true ∧ leaves type = [.uint8] ∧ foreign type = false ∧
      unpadded false type = true := by
  decide +kernel

/-! ### A layout -/

namespace Itanium

/-- Leaves one behind the other, from an offset on. -/
def packed : ℕ → List Leaf → List (ℕ × Leaf)
  | _, [] => []
  | offset, leaf :: rest => (offset, leaf) :: packed (offset + leaf.size) rest

theorem map_packed (offset : ℕ) (list : List Leaf) : (packed offset list).map Prod.snd = list := by
  induction list generalizing offset with
  | nil => rfl
  | cons leaf rest ih => rw [packed, List.map_cons, ih]

theorem inOrder_packed (offset : ℕ) (list : List Leaf) :
    InOrder offset (offset + leafTotal list) (leafFields (packed offset list)) := by
  induction list generalizing offset with
  | nil => exact Nat.le_refl _
  | cons leaf rest ih =>
    have hrest := ih (offset + leaf.size)
    have hcons : leafTotal (leaf :: rest) = leaf.size + leafTotal rest := List.sum_cons
    rw [hcons, ← Nat.add_assoc]
    exact ⟨Nat.le_refl _, hrest⟩

theorem extent_pos (type : CppType) : 0 < (extent type).size := by
  induction type using removeAllExtents.induct with
  | case1 element count ih => exact Nat.mul_pos count.pos ih
  | case2 type hother =>
    cases type with
    | void => exact Nat.one_pos
    | emptyReq => exact Nat.one_pos
    | leaf leaf => exact leaf.size_pos
    | host size => exact size.pos
    | pointer => exact Nat.succ_pos 7
    | unionType size => exact size.pos
    | arrayType element count => exact absurd rfl (hother element count)
    | classType info parts =>
      exact Nat.lt_of_lt_of_le (Nat.lt_of_lt_of_le Nat.one_pos (Nat.le_max_left _ _)) (le_roundUp _ _)

/-- Sizes by the rules of the ABI. Leaves lie one behind the other, as they do where there is no padding
between them; where something else is in a type, its leaves are left out. -/
def layout : Abi where
  sizeof type := (extent type).size
  placement type := if foreign type then [] else packed 0 (leaves type)
  placement_leaves type hforeign := by
    rw [hforeign, if_neg (by decide), map_packed]
  placement_inOrder type hforeign := by
    obtain ⟨padding, hroom, -⟩ := exists_padding type false hforeign
    rw [if_neg (by decide)] at hroom
    rw [hforeign, if_neg (by decide)]
    refine (inOrder_packed 0 (leaves type)).mono (Nat.le_refl _) ?_
    omega
  sizeof_eq _ _ := rfl
  foreign_hasGap type hforeign := by
    have hgap := hasGap_nil 0 (extent_pos type)
    rw [Nat.zero_add] at hgap
    rw [if_pos hforeign]
    exact hgap

end Itanium

/-- `struct ErrorResp { le32 code; }`. -/
def errorResp : CppType := podClass 1 (.cons publicMember (.leaf .le32) .nil)

/-- `class { char *p; }`: the member is private. -/
def hiddenPointer : CppType :=
  .classType ⟨2, false, 1, false⟩ (.cons (.member false (.object false 1)) .pointer .nil)

theorem wireSafe_sound_errorResp :
    errorResp ≠ .emptyReq ∧ unpadded false errorResp = true ∧
      (wireSafe errorResp = true → SentAsLeaves Itanium.layout errorResp) := by
  have hempty : errorResp ≠ .emptyReq := by simp [errorResp, podClass]
  have hunpadded : unpadded false errorResp = true := by decide +kernel
  exact ⟨hempty, hunpadded,
    (wireSafe_sound_iff Itanium.layout errorResp hempty).mpr (Or.inr ⟨rfl, hunpadded⟩)⟩

/-- A pointer goes on the wire that the check has not seen. -/
theorem wireSafe_accepts_hidden_pointer :
    hiddenPointer ≠ .void ∧ hiddenPointer ≠ .emptyReq ∧
      Itanium.layout.sizeof hiddenPointer ≤ kMaxPayload.toNat ∧
      wireSafe hiddenPointer = true ∧ ¬ SentAsLeaves Itanium.layout hiddenPointer := by
  have hempty : hiddenPointer ≠ .emptyReq := by simp [hiddenPointer]
  refine ⟨by simp [hiddenPointer], hempty, by decide +kernel, rfl, ?_⟩
  rw [sentAsLeaves_iff hempty]
  rintro ⟨hforeign, -⟩
  exact absurd hforeign (by decide +kernel)

end ZigbeeRemote.Rpc.WireSafe
