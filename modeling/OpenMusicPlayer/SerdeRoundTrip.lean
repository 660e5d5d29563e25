import Mathlib.Data.List.Forall2
import OpenMusicPlayer.Serde

/-!
# Reading back what was written

On a well-formed shape, the derived `Deserialize` reads back any value the
derived `Serialize` wrote (`deserialize_serialize`). The `Except` lemmas first
peel the decoders' loops apart without unfolding them.
-/

namespace OpenMusicPlayer

/-! ## Reading an `Except` -/

section
variable {ε α β : Type}

theorem bind_eq_ok {x : Except ε α} {f : α → Except ε β} {b : β} :
    (x >>= f) = .ok b ↔ ∃ a, x = .ok a ∧ f a = .ok b := by
  cases x <;> simp [bind, Except.bind]

theorem map_eq_ok {x : Except ε α} {f : α → β} {b : β} :
    (f <$> x) = .ok b ↔ ∃ a, x = .ok a ∧ f a = b := by
  cases x <;> simp [Functor.map, Except.map]

theorem mapM_eq_ok {f : α → Except ε β} :
    ∀ {xs : List α} {ys : List β}, xs.mapM f = .ok ys ↔ List.Forall₂ (fun x y => f x = .ok y) xs ys
  | [], ys => by rw [List.mapM_nil]; simp [eq_comm, pure, Except.pure]
  | x :: xs, ys => by
    simp only [List.mapM_cons, bind_eq_ok, mapM_eq_ok, List.forall₂_cons_left_iff]
    constructor
    · rintro ⟨y, hy, ys', hys, h⟩
      cases h; exact ⟨y, ys', hy, hys, rfl⟩
    · rintro ⟨y, ys', hy, hys, rfl⟩
      exact ⟨y, hy, ys', hys, rfl⟩

end

/-! ## The decoder's loops -/

theorem fill_fst {k : String} {j : Json} : ∀ {slots slots' : List (FieldReader × Option Val)},
    fill k j slots = .ok slots' → slots'.map Prod.fst = slots.map Prod.fst
  | [], _, h => by cases h; rfl
  | (r, got) :: rest, slots', h => by
    simp only [fill] at h
    split at h
    · split at h
      · cases h
      · obtain ⟨v, -, h⟩ := bind_eq_ok.mp h
        cases h; rfl
    · obtain ⟨rest', h', h⟩ := bind_eq_ok.mp h
      cases h
      simp [fill_fst h']

theorem readers_field : ∀ fs : List (FieldDef Shape), (readers fs).map (·.field) = fs
  | [] => rfl
  | f :: fs => by simp [readers, readers_field fs]

theorem deserialize_option {s : Shape} {j : Json} (h : j ≠ .null) :
    deserialize (.option s) j = .some <$> deserialize s j := by
  cases j <;> first | exact absurd rfl h | rfl

/-! ## Reading back what was written -/

theorem readUnsigned_posInt {max n : Nat} (h : n ≤ max) (hmax : max < 18446744073709551616) :
    readUnsigned max (.number (.posInt n.toUInt64)) = .ok (.nat n) := by
  have : n.toUInt64.toNat = n := UInt64.toNat_ofNat_of_lt (show n < 2 ^ 64 by omega)
  simp [readUnsigned, this, h]

theorem readUuid_hyphenated (u : Uuid) : readUuid (.string u.hyphenated) = .ok (.uuid u) := by
  simp [readUuid, parseStr_of_tryParse (tryParse_hyphenated u)]

theorem serialize_ne_null {s : Shape} {v : Val} (hs : s.isOption = false) (hv : s.fits v = true) :
    serialize s v ≠ .null := by
  cases s <;> cases v <;> first | exact fun h => Json.noConfusion h | (cases hv; done) | cases hs

theorem fitsFields_length : ∀ {fs : List (FieldDef Shape)} {vs : List Val},
    fitsFields fs vs = true → fs.length = vs.length
  | [], [], _ => rfl
  | _ :: _, _ :: _, h => congrArg (· + 1) (fitsFields_length ((Bool.and_eq_true _ _).mp h).2)

@[simp] theorem length_readers (fs : List (FieldDef Shape)) : (readers fs).length = fs.length := by
  simpa using congrArg List.length (readers_field fs)

theorem fill_append {k : String} {j : Json} : ∀ {pre : List (FieldReader × Option Val)}
    (rest : List (FieldReader × Option Val)), (∀ x ∈ pre, x.1.field.key ≠ k) →
      fill k j (pre ++ rest) = (pre ++ ·) <$> fill k j rest
  | [], rest, _ => by simp
  | (r, got) :: pre, rest, h => by
    simp only [List.forall_mem_cons] at h
    rw [List.cons_append]
    simp only [fill, if_neg h.1]
    rw [fill_append rest h.2]
    cases fill k j rest <;> rfl

theorem finish_zipWith : ∀ {rs : List FieldReader} {vs : List Val}, rs.length = vs.length →
    finish (rs.zipWith (fun r v => (r, some v)) vs) = .ok vs
  | [], [], _ => rfl
  | r :: rs, v :: vs, h => by
    have := @finish_zipWith rs vs (by simpa using h)
    simp only [finish, List.zipWith_cons_cons, List.mapM_cons] at this ⊢
    rw [this]; rfl

mutual
/-- **Round trip.** On a well-formed shape, the derived decoder reads what the
derived encoder writes for any value of that shape. -/
theorem deserialize_serialize : ∀ (s : Shape) {v : Val}, s.wf = true → s.fits v = true →
    deserialize s (serialize s v) = .ok v
  | .string, v, _, hv | .bool, v, _, hv => by cases v <;> first | rfl | cases hv
  | .u8, v, _, hv | .u32, v, _, hv | .u64, v, _, hv => by
    cases v <;> first | cases hv | exact readUnsigned_posInt (of_decide_eq_true hv) (by decide)
  | .uuid, v, _, hv => by
    cases v <;> try cases hv
    exact readUuid_hyphenated _
  | .option s, v, hs, hv => by
    cases v <;> try cases hv
    case none => rfl
    case some v =>
      obtain ⟨hopt, hs⟩ := (Bool.and_eq_true _ _).mp hs
      have hv : s.fits v = true := hv
      show deserialize (.option s) (serialize s v) = _
      rw [deserialize_option (serialize_ne_null (by simpa using hopt) hv), deserialize_serialize s hs hv]
      rfl
  | .vec s, v, hs, hv => by
    cases v <;> try cases hv
    case list vs =>
      have hv : ∀ v ∈ vs, s.fits v = true := List.all_eq_true.mp hv
      have : (vs.map (serialize s)).mapM (deserialize s) = .ok vs :=
        mapM_eq_ok.mpr (List.forall₂_map_left_iff.mpr
          (List.forall₂_same.mpr fun v h => deserialize_serialize s hs (hv v h)))
      show Val.list <$> _ = _
      rw [this]; rfl
  | .struct fs, v, hs, hv => by
    cases v <;> try cases hv
    case struct vs =>
      obtain ⟨hnd, hwf⟩ := (Bool.and_eq_true _ _).mp hs
      have h := visitMap_serializeFields fs [] hwf (of_decide_eq_true hnd) (by simp) hv
      simp only [List.nil_append] at h
      show (do let slots ← _; Val.struct <$> finish slots) = _
      rw [h]
      show Val.struct <$> finish _ = _
      rw [finish_zipWith (by simpa using fitsFields_length hv)]; rfl
/-- The `visit_map` loop over the entries the encoder writes for the fields
`fs`, after slots `pre` that none of them names: each entry fills its own
field's slot with the value it was written from. -/
theorem visitMap_serializeFields : ∀ (fs : List (FieldDef Shape)) {vs : List Val}
    (pre : List (FieldReader × Option Val)), fieldsWf fs = true → (fs.map FieldDef.key).Nodup →
      (∀ x ∈ pre, x.1.field.key ∉ fs.map FieldDef.key) → fitsFields fs vs = true →
      visitMap (pre ++ (readers fs).map (·, none)) (serializeFields fs vs) =
        .ok (pre ++ (readers fs).zipWith (fun r v => (r, some v)) vs)
  | [], [], pre, _, _, _, _ => rfl
  | f :: fs, v :: vs, pre, hwf, hnd, hpre, hv => by
    obtain ⟨hwf, hwfs⟩ := (Bool.and_eq_true _ _).mp hwf
    obtain ⟨hv, hvs⟩ := (Bool.and_eq_true _ _).mp hv
    obtain ⟨hf, hnd⟩ := List.nodup_cons.mp hnd
    have hfill : fill f.key (serialize f.shape v) (pre ++ (⟨f, deserialize f.shape⟩, none) ::
        (readers fs).map (·, none)) = .ok ((pre ++ [(⟨f, deserialize f.shape⟩, some v)]) ++
          (readers fs).map (·, none)) := by
      rw [fill_append _ fun x hx h => hpre x hx (h ▸ List.mem_cons_self _ _)]
      simp only [fill, if_pos rfl, deserialize_serialize f.shape hwf hv]
      simp
    have hpre' : ∀ x ∈ pre ++ [(⟨f, deserialize f.shape⟩, some v)], x.1.field.key ∉ fs.map FieldDef.key := by
      simp only [List.mem_append, List.mem_singleton]
      rintro x (hx | rfl)
      · exact fun h => hpre x hx (List.mem_cons_of_mem _ h)
      · exact hf
    have hser : serializeFields (f :: fs) (v :: vs) = (f.key, serialize f.shape v) :: serializeFields fs vs :=
      rfl
    have hrd : readers (f :: fs) = ⟨f, deserialize f.shape⟩ :: readers fs := rfl
    rw [hser, hrd, List.map_cons, visitMap, hfill]
    exact (visitMap_serializeFields fs _ hwfs hnd hpre' hvs).trans (by rw [List.append_assoc]; rfl)
  | [], _ :: _, _, _, _, _, hv | _ :: _, [], _, _, _, _, hv => by cases hv
end

end OpenMusicPlayer
