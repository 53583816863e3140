import SeriesStorage.Proofs.Json.ReadBack
import SeriesStorage.Series.Codec

/-!
# Descriptors are read back

The text of a descriptor says what the descriptor says: `decode_encode`.
-/

namespace SeriesStorage

namespace SeriesMetadata

theorem plain_strings (texts : List String) : Json.PlainItems (texts.map .string) := by
  induction texts with
  | nil => trivial
  | cons text rest ih => exact ⟨trivial, ih⟩

theorem strings?_array (texts : List String) :
    Json.strings? (.array (texts.map .string)) = some texts := by
  show (texts.map Json.string).mapM Json.string? = some texts
  induction texts with
  | nil => rfl
  | cons text rest ih => simp [List.mapM_cons, ih, Json.string?]

theorem plain_append {members more : List (String × Json)} (h : Json.PlainMembers members)
    (hmore : Json.PlainMembers more) : Json.PlainMembers (members ++ more) := by
  induction members with
  | nil => exact hmore
  | cons member rest ih => exact ⟨h.1, ih h.2⟩

theorem plain_word (n : UInt64) : Json.Plain (.integer n.toNat) := by
  have := n.toNat_lt
  constructor <;> omega

theorem plain_ns (ns : Namespace) : Json.Plain ns.toJson := by
  have low := ns.number.le_toInt
  have high := ns.number.toInt_lt
  constructor <;> omega

theorem plain_toJson (m : SeriesMetadata) : Json.Plain m.toJson := by
  obtain ⟨id, ns, name, tags, expireAt⟩ := m
  have tagged : Json.PlainMembers
      (if tags.isEmpty then [] else [("tags", .array (tags.map .string))]) := by
    split
    · trivial
    · exact ⟨plain_strings tags, trivial⟩
  have first : Json.PlainMembers
      [("id", id.toJson), ("namespace", ns.toJson), ("name", .string name)] :=
    ⟨plain_word id.number, plain_ns ns, trivial, trivial⟩
  refine plain_append (plain_append first tagged) ?_
  cases expireAt with
  | none => trivial
  | some last => exact ⟨plain_word last, trivial⟩

theorem id_toJson (id : SeriesId) : SeriesId.ofJson? id.toJson = some id := by
  have := id.number.toNat_lt
  simp [SeriesId.ofJson?, SeriesId.toJson, Json.unsigned64?, Json.integerIn?]
  omega

theorem ns_toJson (ns : Namespace) : Namespace.ofJson? ns.toJson = some ns := by
  have low := ns.number.le_toInt
  have high := ns.number.toInt_lt
  simp [Namespace.ofJson?, Namespace.toJson, Json.signed32?, Json.integerIn?]
  omega

theorem word_toJson (n : UInt64) : Json.unsigned64? (.integer n.toNat) = some n := by
  have := n.toNat_lt
  simp [Json.unsigned64?, Json.integerIn?]
  omega

/-- Tags that are left out are none. -/
theorem optional_tags (tags : List String) :
    Json.optional Json.strings? []
      (if tags.isEmpty then none else some (.array (tags.map .string))) = some tags := by
  cases tags with
  | nil => rfl
  | cons tag tags => exact strings?_array (tag :: tags)

/-- An instant of expiry that is left out is none. -/
theorem optional_last (expireAt : Option UInt64) :
    Json.optional (Json.nullOr? Json.unsigned64?) none
      (expireAt.map fun last => .integer last.toNat) = some expireAt := by
  cases expireAt with
  | none => rfl
  | some last =>
    show (Json.unsigned64? (.integer last.toNat)).map some = some (some last)
    rw [word_toJson]
    rfl

/-- Every field of a descriptor is found by its name. -/
theorem fields?_toJson (m : SeriesMetadata) :
    m.toJson.fields? ["id", "namespace", "name", "tags", "ttl_expire_at"] =
      some ⟨false, [some m.id.toJson, some m.ns.toJson, some (.string m.name),
        if m.tags.isEmpty then none else some (.array (m.tags.map .string)),
        m.expireAt.map fun last => .integer last.toNat]⟩ := by
  obtain ⟨id, ns, name, tags, expireAt⟩ := m
  cases tags <;> cases expireAt <;> simp [toJson, Json.fields?, Json.named]

theorem ofJson?_toJson (m : SeriesMetadata) : ofJson? m.toJson = some m := by
  unfold ofJson?
  rw [m.fields?_toJson]
  simp only [Option.bind_eq_bind, Option.bind_some, id_toJson, ns_toJson, Json.string?,
    optional_tags, optional_last, Option.pure_def]

/-- **A descriptor is read back from its text.** -/
theorem decode_encode (m : SeriesMetadata) : decode m.encode = .ok m := by
  unfold decode decodeRecord encode
  rw [Json.parse_toText m.plain_toJson]
  dsimp only
  rw [m.ofJson?_toJson]

end SeriesMetadata

end SeriesStorage
