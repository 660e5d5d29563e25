import Mathlib.Data.List.Nodup
import OpenMusicPlayer.SerdeRoundTrip

/-!
# What the struct visitors compute

The derived struct visitor walks an object's entries once, in order, and
fills the field each key names. Field by field, that is a lookup: a field
takes the value its reader gives for the entry under its key, and a field
with no entry is absent (`deserialize_object`), whatever the order of the
entries (`deserialize_object_perm`). Keys that name no field change nothing
(`deserialize_object_filter`), and a key that comes twice is refused
(`deserialize_object_duplicate`). From an array, the fields are taken in
order, and only `#[serde(default)]` fields may be left out at the end
(`deserialize_array_length`).
-/

namespace OpenMusicPlayer

/-! ## One slot at a time -/

def fillSlot (k : String) (j : Json) (x : FieldReader × Option Val) :
    Except DeError (FieldReader × Option Val) :=
  if x.1.field.key = k then
    match x.2 with
    | some _ => .error (.duplicateField k)
    | none => (x.1, some ·) <$> x.1.read j
  else .ok x

def visitSlot : List (String × Json) → FieldReader × Option Val → Except DeError (FieldReader × Option Val)
  | [], x => .ok x
  | (k, j) :: kvs, x => fillSlot k j x >>= visitSlot kvs

/-- What a derived decoder means by a field of an object: the value its reader
gives for the entry under the field's key; without such an entry, its
`Default` for a `#[serde(default)]` field, `None` for an `Option`, and
`missing_field` for any other field. -/
def FieldReader.fromObject (kvs : List (String × Json)) (r : FieldReader) : Except DeError Val :=
  match kvs.lookup r.field.key with
  | some j => r.read j
  | none =>
    if r.field.default then .ok r.field.shape.defaultVal
    else if r.field.shape.isOption then .ok .none
    else .error (.missingField r.field.key)

section
variable {k : String} {j : Json}

theorem fillSlot_skip (x : FieldReader × Option Val) (h : x.1.field.key ≠ k) : fillSlot k j x = .ok x :=
  if_neg h

theorem fillSlot_fst {x y : FieldReader × Option Val} (h : fillSlot k j x = .ok y) : y.1 = x.1 := by
  unfold fillSlot at h
  split at h
  · split at h
    · cases h
    · obtain ⟨v, -, rfl⟩ := map_eq_ok.mp h; rfl
  · cases h; rfl

theorem mapM_fillSlot_skip {slots : List (FieldReader × Option Val)} (h : ∀ x ∈ slots, x.1.field.key ≠ k) :
    slots.mapM (fillSlot k j) = .ok slots :=
  mapM_eq_ok.mpr (List.forall₂_same.mpr fun x hx => fillSlot_skip x (h x hx))

theorem fill_eq_mapM : ∀ {slots : List (FieldReader × Option Val)},
    (slots.map (·.1.field.key)).Nodup → fill k j slots = slots.mapM (fillSlot k j)
  | [], _ => rfl
  | (r, got) :: rest, hnd => by
    obtain ⟨hr, hnd⟩ := List.nodup_cons.mp hnd
    by_cases hk : r.field.key = k
    · have hrest := mapM_fillSlot_skip (j := j) fun x hx h => hr (List.mem_map.mpr ⟨x, hx, h.trans hk.symm⟩)
      simp only [fill, fillSlot, if_pos hk, List.mapM_cons, hrest]
      cases got with
      | some _ => rfl
      | none => cases r.read j <;> rfl
    · simp only [fill, if_neg hk, List.mapM_cons, fillSlot_skip (r, got) hk, fill_eq_mapM hnd]
      rfl

end

theorem forall₂_comp_iff {α β γ : Type} {R : α → β → Prop} {S : β → γ → Prop} :
    ∀ {xs : List α} {zs : List γ},
      (∃ ys, List.Forall₂ R xs ys ∧ List.Forall₂ S ys zs) ↔ List.Forall₂ (fun x z => ∃ y, R x y ∧ S y z) xs zs
  | [], zs => by simp [List.forall₂_nil_left_iff]
  | x :: xs, zs => by
    simp only [List.forall₂_cons_left_iff]
    constructor
    · rintro ⟨_, ⟨y, ys, hxy, hys, rfl⟩, h⟩
      obtain ⟨z, zs, hyz, hzs, rfl⟩ := List.forall₂_cons_left_iff.mp h
      exact ⟨z, zs, ⟨y, hxy, hyz⟩, forall₂_comp_iff.mp ⟨ys, hys, hzs⟩, rfl⟩
    · rintro ⟨z, zs, ⟨y, hxy, hyz⟩, h, rfl⟩
      obtain ⟨ys, hys, hzs⟩ := forall₂_comp_iff.mpr h
      exact ⟨y :: ys, ⟨y, ys, hxy, hys, rfl⟩, .cons hyz hzs⟩

theorem mapM_congr_mem {ε α β : Type} {f g : α → Except ε β} :
    ∀ {xs : List α}, (∀ x ∈ xs, f x = g x) → xs.mapM f = xs.mapM g
  | [], _ => rfl
  | x :: xs, h => by
    simp only [List.mapM_cons, h x (List.mem_cons_self _ _),
      mapM_congr_mem fun y hy => h y (List.mem_cons_of_mem _ hy)]

theorem visitMap_eq_ok : ∀ {kvs : List (String × Json)} {slots slots' : List (FieldReader × Option Val)},
    (slots.map (·.1.field.key)).Nodup →
      (visitMap slots kvs = .ok slots' ↔ List.Forall₂ (fun x y => visitSlot kvs x = .ok y) slots slots')
  | [], slots, slots', _ => by
    simp only [visitMap, visitSlot, Except.ok.injEq, List.forall₂_eq_eq_eq]
  | (k, j) :: kvs, slots, slots', hnd => by
    simp only [visitMap, visitSlot, bind_eq_ok, fill_eq_mapM hnd, mapM_eq_ok]
    rw [← forall₂_comp_iff]
    refine exists_congr fun s1 => and_congr_right fun h => visitMap_eq_ok ?_
    suffices s1.map (·.1.field.key) = slots.map (·.1.field.key) by rwa [this]
    clear hnd
    induction h with
    | nil => rfl
    | cons hxy _ ih => rw [List.map_cons, List.map_cons, fillSlot_fst hxy, ih]

/-! ## One field of an object -/

section
variable {r : FieldReader} {kvs : List (String × Json)}

theorem visitSlot_skip {got : Option Val} (h : r.field.key ∉ kvs.map Prod.fst) :
    visitSlot kvs (r, got) = .ok (r, got) := by
  induction kvs with
  | nil => rfl
  | cons kv kvs ih =>
    obtain ⟨k, j⟩ := kv
    simp only [List.map_cons, List.mem_cons, not_or] at h
    rw [visitSlot, fillSlot_skip _ h.1]
    exact ih h.2

theorem visitSlot_none (h : (kvs.map Prod.fst).count r.field.key ≤ 1) :
    visitSlot kvs (r, none) = match kvs.lookup r.field.key with
      | some j => (r, some ·) <$> r.read j
      | none => .ok (r, none) := by
  induction kvs with
  | nil => rfl
  | cons kv kvs ih =>
    obtain ⟨k, j⟩ := kv
    by_cases hk : r.field.key = k
    · subst hk
      have hnot : r.field.key ∉ kvs.map Prod.fst :=
        List.count_eq_zero.mp (by simp only [List.map_cons, List.count_cons_self] at h; omega)
      simp only [visitSlot, fillSlot, List.lookup_cons, beq_self_eq_true, if_true]
      cases r.read j <;> simp [bind, Except.bind, Functor.map, Except.map, visitSlot_skip hnot]
    · rw [List.map_cons, List.count_cons_of_ne hk] at h
      rw [visitSlot, fillSlot_skip _ hk, List.lookup_cons, beq_false_of_ne hk]
      exact ih h

theorem visitSlot_some_ne {v : Val} {y : FieldReader × Option Val} (h : r.field.key ∈ kvs.map Prod.fst) :
    visitSlot kvs (r, some v) ≠ .ok y := by
  induction kvs with
  | nil => cases h
  | cons kv kvs ih =>
    obtain ⟨k, j⟩ := kv
    by_cases hk : r.field.key = k
    · simp [visitSlot, fillSlot, hk, bind, Except.bind]
    · simp only [List.map_cons, List.mem_cons, hk, false_or] at h
      rw [visitSlot, fillSlot_skip _ hk]
      exact ih h

theorem visitSlot_dup {got : Option Val} {y : FieldReader × Option Val}
    (h : 2 ≤ (kvs.map Prod.fst).count r.field.key) : visitSlot kvs (r, got) ≠ .ok y := by
  induction kvs generalizing got with
  | nil => simp at h
  | cons kv kvs ih =>
    obtain ⟨k, j⟩ := kv
    by_cases hk : r.field.key = k
    · subst hk
      have hmem : r.field.key ∈ kvs.map Prod.fst :=
        List.count_pos_iff.mp (by simp only [List.map_cons, List.count_cons_self] at h; omega)
      intro hv
      obtain ⟨x, hx, hv⟩ := bind_eq_ok.mp hv
      rw [fillSlot, if_pos rfl] at hx
      cases got with
      | some _ => cases hx
      | none =>
        obtain ⟨v, -, rfl⟩ := map_eq_ok.mp hx
        exact visitSlot_some_ne hmem hv
    · rw [List.map_cons, List.count_cons_of_ne hk] at h
      rw [visitSlot, fillSlot_skip _ hk]
      exact ih h

theorem visitSlot_close (h : (kvs.map Prod.fst).count r.field.key ≤ 1) :
    (visitSlot kvs (r, none) >>= fun y => y.1.close y.2) = r.fromObject kvs := by
  rw [visitSlot_none h, FieldReader.fromObject]
  split
  · cases r.read _ <;> rfl
  · rfl

end

/-! ## The struct visitor -/

theorem deserialize_object_eq (fs : List (FieldDef Shape)) (kvs : List (String × Json)) :
    deserialize (.struct fs) (.object kvs) =
      .struct <$> (visitMap ((readers fs).map (·, none)) kvs >>= finish) := by
  show (visitMap _ kvs >>= fun slots => Val.struct <$> finish slots) = _
  cases visitMap _ kvs <;> rfl

theorem keys_readers (fs : List (FieldDef Shape)) :
    ((readers fs).map fun r => (r, (none : Option Val))).map (·.1.field.key) = fs.map FieldDef.key :=
  calc _ = (readers fs).map (·.field.key) := by rw [List.map_map]; rfl
    _ = ((readers fs).map (·.field)).map FieldDef.key := by rw [List.map_map]; rfl
    _ = fs.map FieldDef.key := by rw [readers_field]

theorem deserialize_object_slots {fs : List (FieldDef Shape)} {kvs : List (String × Json)} {v : Val}
    (hfs : (fs.map FieldDef.key).Nodup) :
    deserialize (.struct fs) (.object kvs) = .ok v ↔
      ∃ vs, v = .struct vs ∧ (readers fs).mapM (fun r => visitSlot kvs (r, none) >>= fun y => y.1.close y.2) =
        .ok vs := by
  have hnd : (((readers fs).map (·, none)).map (·.1.field.key)).Nodup := (keys_readers fs).symm ▸ hfs
  rw [deserialize_object_eq, map_eq_ok]
  simp only [bind_eq_ok, visitMap_eq_ok hnd, finish, mapM_eq_ok, List.forall₂_map_left_iff]
  constructor
  · rintro ⟨vs, ⟨slots, hslots, hvs⟩, rfl⟩
    exact ⟨vs, rfl, forall₂_comp_iff.mp ⟨slots, hslots, hvs⟩⟩
  · rintro ⟨vs, rfl, h⟩
    obtain ⟨slots, hslots, hvs⟩ := forall₂_comp_iff.mpr h
    exact ⟨vs, ⟨slots, hslots, hvs⟩, rfl⟩

theorem mapM_fromObject {fs : List (FieldDef Shape)} {kvs : List (String × Json)}
    (hkvs : ∀ f ∈ fs, (kvs.map Prod.fst).count f.key ≤ 1) :
    (readers fs).mapM (fun r => visitSlot kvs (r, none) >>= fun y => y.1.close y.2) =
      (readers fs).mapM (FieldReader.fromObject kvs) :=
  mapM_congr_mem fun r hr => visitSlot_close (hkvs r.field (readers_field fs ▸ List.mem_map_of_mem _ hr))

/-- **Each field from its own entry.** For a struct with distinct field names,
read from an object in which no field's name comes twice, the derived visitor
succeeds exactly when every field succeeds on its own: with the value its
reader gives for the entry under its name, or with its default, `None` or
`missing_field` when there is none. -/
theorem deserialize_object {fs : List (FieldDef Shape)} {kvs : List (String × Json)} {v : Val}
    (hfs : (fs.map FieldDef.key).Nodup) (hkvs : ∀ f ∈ fs, (kvs.map Prod.fst).count f.key ≤ 1) :
    deserialize (.struct fs) (.object kvs) = .ok v ↔
      ∃ vs, v = .struct vs ∧ (readers fs).mapM (FieldReader.fromObject kvs) = .ok vs := by
  rw [deserialize_object_slots hfs, mapM_fromObject hkvs]

theorem deserialize_object_reordered :
    (([⟨"id", .string, false⟩, ⟨"n", .option .u8, false⟩] : List (FieldDef Shape)).map FieldDef.key).Nodup ∧
    (∀ f ∈ ([⟨"id", .string, false⟩, ⟨"n", .option .u8, false⟩] : List (FieldDef Shape)),
      ([("n", Json.number (.posInt 3)), ("id", .string "x")].map Prod.fst).count f.key ≤ 1) ∧
    (deserialize (.struct [⟨"id", .string, false⟩, ⟨"n", .option .u8, false⟩])
        (.object [("n", .number (.posInt 3)), ("id", .string "x")]) = .ok (.struct [.string "x", .some (.nat 3)]) ↔
      ∃ vs, Val.struct [.string "x", .some (.nat 3)] = .struct vs ∧
        (readers [⟨"id", .string, false⟩, ⟨"n", .option .u8, false⟩]).mapM
          (FieldReader.fromObject [("n", .number (.posInt 3)), ("id", .string "x")]) = .ok vs) :=
  ⟨by decide, by decide, deserialize_object (by decide) (by decide)⟩

theorem forall₂_mem_left {α β : Type} {R : α → β → Prop} {xs : List α} {ys : List β}
    (h : List.Forall₂ R xs ys) {x : α} (hx : x ∈ xs) : ∃ y ∈ ys, R x y := by
  induction h with
  | nil => cases hx
  | cons hxy _ ih =>
    rcases List.mem_cons.mp hx with rfl | hx
    · exact ⟨_, List.mem_cons_self _ _, hxy⟩
    · obtain ⟨y, hy, h⟩ := ih hx
      exact ⟨y, List.mem_cons_of_mem _ hy, h⟩

/-- **A repeated name is refused.** When the name of a field comes twice in
the object, the derived visitor fails, whatever the values. -/
theorem deserialize_object_duplicate {fs : List (FieldDef Shape)} {kvs : List (String × Json)} {f : FieldDef Shape}
    {v : Val} (hfs : (fs.map FieldDef.key).Nodup) (hf : f ∈ fs) (h2 : 2 ≤ (kvs.map Prod.fst).count f.key) :
    deserialize (.struct fs) (.object kvs) ≠ .ok v := by
  intro h
  rw [deserialize_object_eq, map_eq_ok] at h
  obtain ⟨vs, h, -⟩ := h
  obtain ⟨slots, hslots, -⟩ := bind_eq_ok.mp h
  have hslots := (visitMap_eq_ok ((keys_readers fs).symm ▸ hfs)).mp hslots
  obtain ⟨r, hr, rfl⟩ := List.mem_map.mp ((readers_field fs).symm ▸ hf : f ∈ (readers fs).map (·.field))
  obtain ⟨y, -, hy⟩ := forall₂_mem_left hslots (List.mem_map_of_mem (·, none) hr)
  exact visitSlot_dup h2 hy

theorem deserialize_object_duplicate_id :
    (([⟨"id", .string, false⟩] : List (FieldDef Shape)).map FieldDef.key).Nodup ∧
    (⟨"id", .string, false⟩ : FieldDef Shape) ∈ ([⟨"id", .string, false⟩] : List (FieldDef Shape)) ∧
    2 ≤ ([("id", Json.string "a"), ("id", .string "b")].map Prod.fst).count "id" ∧
    deserialize (.struct [⟨"id", .string, false⟩]) (.object [("id", .string "a"), ("id", .string "b")]) ≠
      .ok (.struct [.string "b"]) :=
  ⟨by decide, List.mem_singleton_self _, by decide,
    deserialize_object_duplicate (by decide) (List.mem_singleton_self _) (by decide)⟩

/-! ## Unknown keys and the order of the entries -/

theorem fill_unknown {k : String} {j : Json} : ∀ {slots : List (FieldReader × Option Val)},
    (∀ x ∈ slots, x.1.field.key ≠ k) → fill k j slots = .ok slots
  | [], _ => rfl
  | (r, got) :: rest, h => by
    rw [List.forall_mem_cons] at h
    simp only [fill, if_neg h.1, fill_unknown h.2]
    rfl

theorem visitMap_filter {keys : List String} : ∀ {kvs : List (String × Json)} {slots : List (FieldReader × Option Val)},
    (∀ x ∈ slots, x.1.field.key ∈ keys) → visitMap slots kvs = visitMap slots (kvs.filter fun kv => kv.1 ∈ keys)
  | [], _, _ => rfl
  | (k, j) :: kvs, slots, h => by
    by_cases hk : k ∈ keys
    · rw [List.filter_cons_of_pos (p := fun kv : String × Json => decide (kv.1 ∈ keys)) (by simpa using hk)]
      simp only [visitMap]
      cases hf : fill k j slots with
      | error e => rfl
      | ok s1 =>
        refine visitMap_filter fun x hx => ?_
        obtain ⟨x', hx', he⟩ := List.mem_map.mp (fill_fst hf ▸ List.mem_map_of_mem Prod.fst hx)
        exact he ▸ h x' hx'
    · rw [List.filter_cons_of_neg (p := fun kv : String × Json => decide (kv.1 ∈ keys)) (by simpa using hk),
        visitMap, fill_unknown (k := k) (j := j) fun x hx he => hk (he ▸ h x hx)]
      exact visitMap_filter h

/-- **Unknown keys are skipped.** Entries whose key names no field change
nothing: the visitor reads an object as it reads the object without them. -/
theorem deserialize_object_filter (fs : List (FieldDef Shape)) (kvs : List (String × Json)) :
    deserialize (.struct fs) (.object kvs) =
      deserialize (.struct fs) (.object (kvs.filter fun kv => kv.1 ∈ fs.map FieldDef.key)) := by
  rw [deserialize_object_eq, deserialize_object_eq, ← visitMap_filter]
  intro x hx
  exact keys_readers fs ▸ List.mem_map_of_mem (·.1.field.key) hx

theorem lookup_eq_some_iff_mem {k : String} {j : Json} : ∀ {kvs : List (String × Json)},
    (kvs.map Prod.fst).Nodup → (kvs.lookup k = some j ↔ (k, j) ∈ kvs)
  | [], _ => by simp
  | (k', j') :: kvs, hnd => by
    obtain ⟨hk', hnd⟩ := List.nodup_cons.mp hnd
    by_cases hk : k = k'
    · subst hk
      have : (k, j) ∉ kvs := fun h => hk' (List.mem_map.mpr ⟨_, h, rfl⟩)
      simp [this, eq_comm]
    · simp [List.lookup_cons, beq_false_of_ne hk, hk, lookup_eq_some_iff_mem hnd]

/-- **The order of the entries does not matter.** Two objects with the same
entries under distinct keys, in any order, read to the same value. -/
theorem deserialize_object_perm {fs : List (FieldDef Shape)} {kvs kvs' : List (String × Json)} {v : Val}
    (hfs : (fs.map FieldDef.key).Nodup) (hnd : (kvs.map Prod.fst).Nodup) (hp : kvs.Perm kvs') :
    deserialize (.struct fs) (.object kvs) = .ok v ↔ deserialize (.struct fs) (.object kvs') = .ok v := by
  have hnd' : (kvs'.map Prod.fst).Nodup := (hp.map Prod.fst).nodup_iff.mp hnd
  have hlookup : ∀ k, kvs.lookup k = kvs'.lookup k := fun k => Option.ext fun j => by
    rw [Option.mem_def, Option.mem_def, lookup_eq_some_iff_mem hnd, lookup_eq_some_iff_mem hnd', hp.mem_iff]
  have hread : FieldReader.fromObject kvs = FieldReader.fromObject kvs' := by
    funext r; simp only [FieldReader.fromObject, hlookup]
  rw [deserialize_object_slots hfs, deserialize_object_slots hfs,
    mapM_fromObject fun f _ => List.nodup_iff_count_le_one.mp hnd f.key,
    mapM_fromObject fun f _ => List.nodup_iff_count_le_one.mp hnd' f.key, hread]

theorem deserialize_object_perm_swap :
    (([⟨"id", .string, false⟩, ⟨"n", .option .u8, false⟩] : List (FieldDef Shape)).map FieldDef.key).Nodup ∧
    ([("n", Json.number (.posInt 3)), ("id", .string "x")].map Prod.fst).Nodup ∧
    [("n", Json.number (.posInt 3)), ("id", .string "x")].Perm [("id", .string "x"), ("n", .number (.posInt 3))] ∧
    (deserialize (.struct [⟨"id", .string, false⟩, ⟨"n", .option .u8, false⟩])
        (.object [("n", .number (.posInt 3)), ("id", .string "x")]) = .ok (.struct [.string "x", .some (.nat 3)]) ↔
      deserialize (.struct [⟨"id", .string, false⟩, ⟨"n", .option .u8, false⟩])
        (.object [("id", .string "x"), ("n", .number (.posInt 3))]) = .ok (.struct [.string "x", .some (.nat 3)])) :=
  ⟨by decide, by decide, .swap _ _ _, deserialize_object_perm (by decide) (by decide) (.swap _ _ _)⟩

/-! ## Arrays -/

theorem visitSeq_length : ∀ {rs : List FieldReader} {i : Nat} {xs : List Json} {vs : List Val},
    visitSeq rs i xs = .ok vs → xs.length ≤ rs.length ∧ ∀ r ∈ rs.drop xs.length, r.field.default = true
  | [], _, [], _, _ => ⟨le_rfl, by simp⟩
  | [], _, _ :: _, _, h => by cases h
  | r :: rs, i, [], vs, h => by
    simp only [visitSeq] at h
    split at h
    · obtain ⟨vs', hvs, -⟩ := map_eq_ok.mp h
      have hd := (visitSeq_length hvs).2
      simp only [List.length_nil, List.drop_zero, List.length_cons, Nat.zero_le, List.mem_cons,
        forall_eq_or_imp, true_and] at hd ⊢
      exact ⟨‹_›, hd⟩
    · cases h
  | r :: rs, i, j :: js, vs, h => by
    obtain ⟨v, -, h⟩ := bind_eq_ok.mp h
    obtain ⟨vs', hvs, -⟩ := bind_eq_ok.mp h
    obtain ⟨hl, hd⟩ := visitSeq_length hvs
    exact ⟨Nat.succ_le_succ hl, hd⟩

/-- **Arrays.** A struct read from an array has no more elements than fields,
and every field past the last element is `#[serde(default)]`. -/
theorem deserialize_array_length {fs : List (FieldDef Shape)} {xs : List Json} {v : Val}
    (h : deserialize (.struct fs) (.array xs) = .ok v) :
    xs.length ≤ fs.length ∧ ∀ f ∈ fs.drop xs.length, f.default = true := by
  have h : Val.struct <$> visitSeq (readers fs) 0 xs = .ok v := h
  obtain ⟨vs, hvs, -⟩ := map_eq_ok.mp h
  obtain ⟨hl, hd⟩ := visitSeq_length hvs
  rw [← readers_field fs, ← List.map_drop]
  exact ⟨by simpa using hl, fun f hf => by obtain ⟨r, hr, rfl⟩ := List.mem_map.mp hf; exact hd r hr⟩

theorem deserialize_array_length_default :
    deserialize (.struct [⟨"a", .string, false⟩, ⟨"b", .vec .string, true⟩]) (.array [.string "x"]) =
      .ok (.struct [.string "x", .list []]) ∧
    [Json.string "x"].length ≤ ([⟨"a", .string, false⟩, ⟨"b", .vec .string, true⟩] : List (FieldDef Shape)).length ∧
    ∀ f ∈ ([⟨"a", .string, false⟩, ⟨"b", .vec .string, true⟩] : List (FieldDef Shape)).drop [Json.string "x"].length,
      f.default = true :=
  have h : deserialize (.struct [⟨"a", .string, false⟩, ⟨"b", .vec .string, true⟩]) (.array [.string "x"]) =
      .ok (.struct [.string "x", .list []]) := rfl
  ⟨h, deserialize_array_length h⟩

end OpenMusicPlayer
