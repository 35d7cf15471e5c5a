import Mathlib.Data.List.Nodup
import Mathlib.Data.Rat.Defs
import Mathlib.Logic.Function.Basic

/-!
# Documents and collections

A document has typed values under field names, and a typed client that reads a
field of another type fails. A collection files documents under ids and
remembers the order in which they came, so that a query can list them: each
document of the collection once.
-/

namespace Documents

inductive Value where
  | null
  | bool (b : Bool)
  | integer (n : ℤ)
  | double (q : ℚ)
  | string (s : String)
  | timestamp (t : ℤ)
  | geoPoint (latitude longitude : ℚ)
  | map (fields : List (String × Value))

namespace Value

def asString : Value → Option String
  | .string s => some s
  | _ => none

def asDouble : Value → Option ℚ
  | .double q => some q
  | _ => none

def asTimestamp : Value → Option ℤ
  | .timestamp t => some t
  | _ => none

def asGeoPoint : Value → Option (ℚ × ℚ)
  | .geoPoint latitude longitude => some (latitude, longitude)
  | _ => none

end Value

/-! ## Fields -/

abbrev Doc := String → Option Value

namespace Doc

def ofList : List (String × Value) → Doc
  | [], _ => none
  | (k, v) :: fields, k' => if k' = k then some v else ofList fields k'

def set (d : Doc) (k : String) (v : Value) : Doc := Function.update d k (some v)

/-- Reads field `k` at the type of `cast`; a missing field fails like one of
another type. -/
def read {α : Type*} (d : Doc) (k : String) (cast : Value → Option α) : Option α := (d k).bind cast

def asMap : Value → Option Doc
  | .map fields => some (ofList fields)
  | _ => none

variable {α : Type*} {d : Doc} {k k' : String} {v : Value} {cast : Value → Option α}

@[simp] theorem set_self : d.set k v k = some v := Function.update_self ..

theorem set_of_ne (h : k' ≠ k) : d.set k v k' = d k' := Function.update_of_ne h ..

@[simp] theorem read_set_self : (d.set k v).read k cast = cast v := by
  rw [read, set_self, Option.bind_some]

theorem read_set_of_ne (h : k' ≠ k) : (d.set k v).read k' cast = d.read k' cast := by
  rw [read, read, set_of_ne h]

@[simp] theorem ofList_cons {fields : List (String × Value)} :
    ofList ((k, v) :: fields) k' = if k' = k then some v else ofList fields k' := rfl

theorem ofList_map_of_ne {fields : List (String × Value)} (h : k' ≠ k) :
    ofList fields k' = ofList (fields.map fun e => if e.1 = k then (k, v) else e) k' := by
  induction fields with
  | nil => rfl
  | cons e fields ih =>
    obtain ⟨k₁, v₁⟩ := e
    rw [List.map_cons, ofList_cons, ih]
    by_cases h₁ : k₁ = k
    · subst h₁
      rw [if_pos rfl, ofList_cons, if_neg h, if_neg h]
    · rw [if_neg h₁, ofList_cons]

theorem set_ofList {fields : List (String × Value)} (h : k ∈ fields.map Prod.fst) :
    (ofList fields).set k v = ofList (fields.map fun e => if e.1 = k then (k, v) else e) := by
  funext k'
  induction fields with
  | nil => cases h
  | cons e fields ih =>
    obtain ⟨k₁, v₁⟩ := e
    rw [List.map_cons]
    by_cases h₁ : k₁ = k
    · subst h₁
      rw [if_pos rfl, ofList_cons]
      by_cases hk : k' = k₁
      · subst hk
        rw [set_self, if_pos rfl]
      · rw [set_of_ne hk, ofList_cons, if_neg hk, if_neg hk]
        exact ofList_map_of_ne hk
    · have hmem : k ∈ fields.map Prod.fst := (List.mem_cons.mp h).resolve_left fun hk => h₁ hk.symm
      rw [if_neg h₁, ofList_cons, ← ih hmem]
      by_cases hk : k' = k
      · subst hk
        rw [set_self, if_neg (Ne.symm h₁), set_self]
      · rw [set_of_ne hk, ofList_cons, set_of_ne hk]

end Doc

/-! ## Collections -/

structure Collection where
  ids : List String
  get : String → Option Doc
  nodup : ids.Nodup
  mem_ids : ∀ {id}, id ∈ ids ↔ (get id).isSome

namespace Collection

def empty : Collection := ⟨[], fun _ => none, List.nodup_nil, by simp⟩

@[simp] theorem get_empty (id : String) : empty.get id = none := rfl

def set (c : Collection) (id : String) (d : Doc) : Collection where
  ids := if id ∈ c.ids then c.ids else c.ids ++ [id]
  get := Function.update c.get id (some d)
  nodup := by
    split
    · exact c.nodup
    · rename_i h
      exact List.nodup_append_comm.mp (List.nodup_cons.mpr ⟨h, c.nodup⟩)
  mem_ids {id'} := by
    by_cases hid : id' = id
    · subst hid
      by_cases h : id' ∈ c.ids <;> simp [h]
    · rw [Function.update_of_ne hid, ← c.mem_ids]
      by_cases h : id ∈ c.ids <;> simp [h, hid]

/-- An update of one field; there has to be a document. -/
def update (c : Collection) (id k : String) (v : Value) : Option Collection :=
  (c.get id).map fun d => c.set id (d.set k v)

def docs (c : Collection) : List Doc := c.ids.filterMap c.get

variable {c c' : Collection} {id id' k : String} {d : Doc} {v : Value}

theorem get_set : (c.set id d).get id' = if id' = id then some d else c.get id' :=
  Function.update_apply ..

@[simp] theorem get_set_self : (c.set id d).get id = some d := Function.update_self ..

theorem ids_set_of_fresh (h : c.get id = none) : (c.set id d).ids = c.ids ++ [id] := by
  have hid : id ∉ c.ids := by
    rw [c.mem_ids, h]
    simp
  exact if_neg hid

theorem ids_set_of_get {d' : Doc} (h : c.get id = some d') : (c.set id d).ids = c.ids := by
  have hid : id ∈ c.ids := by
    rw [c.mem_ids, h]
    rfl
  exact if_pos hid

theorem update_eq_some : c.update id k v = some c' ↔ ∃ d, c.get id = some d ∧ c' = c.set id (d.set k v) := by
  rw [update, Option.map_eq_some_iff]
  simp only [eq_comm]

theorem docs_set_of_fresh (h : c.get id = none) : (c.set id d).docs = c.docs ++ [d] := by
  rw [docs, ids_set_of_fresh h, List.filterMap_append, List.filterMap_cons, get_set_self, List.filterMap_nil]
  congr 1
  refine List.filterMap_congr fun id' hid' => ?_
  have hne : id' ≠ id := by
    intro he
    rw [he, c.mem_ids, h] at hid'
    cases hid'
  rw [get_set, if_neg hne]

/-! ## Encoded values -/

/-- The collection has the encoding of each value, in this order, under its key. -/
structure Holds {α : Type*} (key : α → String) (enc : α → Doc) (ws : List α) (c : Collection) : Prop where
  ids : c.ids = ws.map key
  get : ∀ w ∈ ws, c.get (key w) = some (enc w)

section
variable {α : Type*} {key : α → String} {enc : α → Doc} {ws : List α}

theorem holds_empty : Holds key enc [] empty := ⟨rfl, by simp⟩

theorem Holds.docs (h : Holds key enc ws c) : c.docs = ws.map enc := by
  rw [Collection.docs, h.ids, List.filterMap_map, ← List.filterMap_eq_map]
  exact List.filterMap_congr h.get

theorem Holds.mem (h : Holds key enc ws c) (hd : c.get id = some d) : ∃ w ∈ ws, key w = id ∧ d = enc w := by
  have hid : id ∈ c.ids := by
    rw [c.mem_ids, hd]
    rfl
  rw [h.ids] at hid
  obtain ⟨w, hw, rfl⟩ := List.mem_map.mp hid
  exact ⟨w, hw, rfl, Option.some.inj (hd.symm.trans (h.get w hw))⟩

theorem Holds.append (h : Holds key enc ws c) {w : α} (hf : c.get (key w) = none) :
    Holds key enc (ws ++ [w]) (c.set (key w) (enc w)) := by
  refine ⟨?_, ?_⟩
  · rw [ids_set_of_fresh hf, h.ids, List.map_append]
    rfl
  · intro w' hw'
    rw [get_set]
    split
    · rename_i hk
      rcases List.mem_append.mp hw' with hw' | hw'
      · rw [← hk, h.get w' hw'] at hf
        cases hf
      · rw [List.mem_singleton.mp hw']
    · rename_i hk
      rcases List.mem_append.mp hw' with hw' | hw'
      · exact h.get w' hw'
      · exact absurd (congrArg key (List.mem_singleton.mp hw')) hk

theorem Holds.modify (h : Holds key enc ws c) {f : α → α} (hkey : ∀ w, key (f w) = key w)
    (hd : c.get id = some d) {d' : Doc} (hf : ∀ w ∈ ws, key w = id → d' = enc (f w)) :
    Holds key enc (ws.map fun w => if key w = id then f w else w) (c.set id d') := by
  have hk : ∀ w, key (if key w = id then f w else w) = key w := by
    intro w
    split
    · exact hkey w
    · rfl
  refine ⟨?_, ?_⟩
  · rw [ids_set_of_get hd, h.ids, List.map_map]
    exact List.map_congr_left fun w _ => (hk w).symm
  · intro w' hw'
    obtain ⟨w, hw, rfl⟩ := List.mem_map.mp hw'
    rw [hk, get_set]
    split
    · rename_i hid
      rw [hf w hw hid]
    · exact h.get w hw

end

end Collection

/-! ## Queries -/

def time (field : String) (d : Doc) : ℤ := (d.read field Value.asTimestamp).getD 0

/-- `orderBy(field, descending: true)`, which leaves out documents without the
field. -/
def newestFirst (field : String) (ds : List Doc) : List Doc :=
  (ds.filter fun d => (d field).isSome).mergeSort fun a b => decide (time field b ≤ time field a)

theorem mem_newestFirst {field : String} {ds : List Doc} {d : Doc} :
    d ∈ newestFirst field ds ↔ d ∈ ds ∧ (d field).isSome := by
  rw [newestFirst, List.mem_mergeSort, List.mem_filter]

section
variable {α : Type*} {enc : α → Doc} {dec : Doc → Option α} {field : String}

theorem isSome_of_mapM {ds : List Doc} : ∀ {ws : List α}, ds.mapM dec = some ws → ∀ d ∈ ds, (dec d).isSome := by
  induction ds with
  | nil => simp
  | cons d ds ih =>
    intro ws h d' hd'
    simp only [List.mapM_cons, Option.bind_eq_bind, Option.bind_eq_some_iff] at h
    obtain ⟨w, hw, ws', hws', -⟩ := h
    rcases List.mem_cons.mp hd' with hd' | hd'
    · rw [hd', hw]
      rfl
    · exact ih hws' d' hd'

theorem mapM_map_encode {ws : List α} (h : ∀ w ∈ ws, dec (enc w) = some w) : (ws.map enc).mapM dec = some ws := by
  induction ws with
  | nil => rfl
  | cons w ws ih =>
    have hw := h w List.mem_cons_self
    have hws := ih fun w' hw' => h w' (List.mem_cons_of_mem w hw')
    simp [hw, hws]

/-- What a query reads of documents that were encoded: each of them once. -/
theorem read_newestFirst {ws : List α} (h : ∀ w ∈ ws, dec (enc w) = some w)
    (hf : ∀ w ∈ ws, (enc w field).isSome) :
    ∃ ws', (newestFirst field (ws.map enc)).mapM dec = some ws' ∧ ws'.Perm ws := by
  have hall : (ws.map enc).filter (fun d => (d field).isSome) = ws.map enc := by
    rw [List.filter_eq_self]
    intro d hd
    obtain ⟨w, hw, rfl⟩ := List.mem_map.mp hd
    exact hf w hw
  have hsort : newestFirst field (ws.map enc) =
      (ws.mergeSort fun a b => decide (time field (enc b) ≤ time field (enc a))).map enc := by
    rw [newestFirst, hall, List.map_mergeSort]
    intro a _ b _
    rfl
  have hperm := List.mergeSort_perm ws fun a b => decide (time field (enc b) ≤ time field (enc a))
  refine ⟨_, ?_, hperm⟩
  rw [hsort]
  exact mapM_map_encode fun w hw => h w (hperm.subset hw)

end

/-! ## Newest first -/

theorem newestFirst_perm (field : String) (ds : List Doc) :
    (newestFirst field ds).Perm (ds.filter fun d => (d field).isSome) := List.mergeSort_perm ..

theorem newestFirst_pairwise (field : String) (ds : List Doc) :
    (newestFirst field ds).Pairwise fun a b => time field b ≤ time field a := by
  have h := @List.pairwise_mergeSort _ (fun a b => decide (time field b ≤ time field a))
    (fun a b c hab hbc => decide_eq_true (Int.le_trans (of_decide_eq_true hbc) (of_decide_eq_true hab)))
    (fun a b => by simpa using Int.le_total (time field b) (time field a)) (ds.filter fun d => (d field).isSome)
  exact h.imp of_decide_eq_true

section
variable {α : Type*} {dec : Doc → Option α} {ds : List Doc} {ws : List α}

theorem map_of_mapM (h : ds.mapM dec = some ws) : ds.map dec = ws.map some := by
  induction ds generalizing ws with
  | nil =>
    obtain rfl : ws = [] := by simpa using h.symm
    rfl
  | cons d ds ih =>
    simp only [List.mapM_cons, Option.bind_eq_bind, Option.bind_eq_some_iff] at h
    obtain ⟨w, hw, ws', hws', h⟩ := h
    obtain rfl := Option.some.inj h
    rw [List.map_cons, List.map_cons, hw, ih hws']

theorem mapM_eq_none_iff : ds.mapM dec = none ↔ ∃ d ∈ ds, dec d = none := by
  induction ds with
  | nil => simp
  | cons d ds ih =>
    rw [List.exists_mem_cons_iff, ← ih]
    cases hd : dec d <;> cases hds : ds.mapM dec <;> simp [hd, hds]

/-- The result is the list of the documents that have the field, sorted by `t`; and
there is none when one of these documents cannot be read. -/
structure Listing (dec : Doc → Option α) (t : α → ℤ) (field : String) (ds : List Doc)
    (result : Option (List α)) : Prop where
  error : result = none ↔ ∃ d ∈ ds, (d field).isSome ∧ dec d = none
  sorted : ∀ ws ∈ result, ws.Pairwise fun a b => t b ≤ t a
  each : ∀ ws ∈ result, ((ds.filter fun d => (d field).isSome).map dec).Perm (ws.map some)

theorem listing_newestFirst {t : α → ℤ} {field : String}
    (hdec : ∀ d a, dec d = some a → d.read field Value.asTimestamp = some (t a)) :
    Listing dec t field ds ((newestFirst field ds).mapM dec) where
  error := by
    rw [mapM_eq_none_iff]
    simp only [mem_newestFirst, and_assoc]
  sorted ws hws := by
    have htime : ∀ d a, dec d = some a → time field d = t a := by
      intro d a hd
      rw [time, hdec d a hd, Option.getD_some]
    have hmap : ((newestFirst field ds).map dec).Pairwise fun x y =>
        ∀ a b, x = some a → y = some b → t b ≤ t a := by
      rw [List.pairwise_map]
      refine (newestFirst_pairwise field ds).imp fun {d d'} hle a b ha hb => ?_
      rwa [htime d a ha, htime d' b hb] at hle
    rw [map_of_mapM hws, List.pairwise_map] at hmap
    exact hmap.imp fun hle => hle _ _ rfl rfl
  each ws hws := by
    rw [← map_of_mapM hws]
    exact ((newestFirst_perm field ds).map dec).symm

/-- Values that came with ever later times are listed in the opposite order. -/
theorem Listing.eq_reverse {t : α → ℤ} {field : String} {result : Option (List α)}
    (h : Listing dec t field ds result) {vs ws : List α} (hr : result = some ws) (hp : ws.Perm vs)
    (ht : (vs.map t).Pairwise (· < ·)) : ws = vs.reverse := by
  rw [List.pairwise_map] at ht
  refine @List.Perm.eq_of_pairwise _ (fun a b => t b ≤ t a) _ _ ?_ (h.sorted ws hr) ?_
    (hp.trans (List.reverse_perm vs).symm)
  · intro a b ha hb hab hba
    have hinj : ∀ ⦃a⦄, a ∈ vs → ∀ ⦃b⦄, b ∈ vs → t a = t b → a = b :=
      List.Pairwise.forall_of_forall_of_flip (fun _ _ _ => rfl)
        (ht.imp fun hlt heq => absurd heq (Int.ne_of_lt hlt))
        (ht.imp fun hlt heq => absurd heq.symm (Int.ne_of_lt hlt))
    exact hinj (hp.subset ha) (List.mem_reverse.mp hb) (Int.le_antisymm hba hab)
  · rw [List.pairwise_reverse]
    exact ht.imp fun hlt => Int.le_of_lt hlt

end

end Documents
