import StreamCatalog.Proofs.Json.Doubles
import StreamCatalog.Record.Stored

/-!
# Reading back geometries

A stored geometry is read back as the geometry with each coordinate read back
(`Geometry.rereadAs_toJson`): kind, order and number of the points stay.
-/

namespace StreamCatalog

section Reading

variable [Json.NumberReader]

/-! ## Points -/

/-- A point with a function applied to its coordinates, if it gives both. -/
def Coord.mapDoubles? (f : Float → Option Float) (c : Coord) : Option Coord := do
  return ⟨← f c.x, ← f c.y⟩

theorem Coord.rereadAs_toJson (c : Coord) :
    c.toJson.rereadAs ofJson? = c.mapDoubles? Json.rereadFloat? := by
  rw [toJson, Json.rereadAs_pair Json.float? Json.float? Coord.mk fun a b => rfl,
    Json.rereadAs_float?, Json.rereadAs_float?]
  rfl

/-- Points with a function applied to their coordinates. -/
def mapCoords? (f : Float → Option Float) (cs : List Coord) : Option (List Coord) :=
  cs.mapM (Coord.mapDoubles? f)

theorem rereadAs_coordsToJson (cs : List Coord) :
    (coordsToJson cs).rereadAs coordsOfJson? = mapCoords? Json.rereadFloat? cs :=
  Json.rereadAs_array fun c _ => c.rereadAs_toJson

/-- Rings or lines with a function applied to their coordinates. -/
def mapRings? (f : Float → Option Float) (rings : List (List Coord)) :
    Option (List (List Coord)) :=
  rings.mapM (mapCoords? f)

theorem rereadAs_ringsToJson (rings : List (List Coord)) :
    (Json.array (rings.map coordsToJson)).rereadAs (fun j => do (← j.array?).mapM coordsOfJson?) =
      mapRings? Json.rereadFloat? rings :=
  Json.rereadAs_array fun ring _ => rereadAs_coordsToJson ring

/-- A polygon with a function applied to its coordinates. -/
def Polygon.mapDoubles? (f : Float → Option Float) (p : Polygon) : Option Polygon := do
  return ⟨← mapCoords? f p.exterior, ← mapRings? f p.holes⟩

theorem Polygon.rereadAs_toJson (p : Polygon) :
    p.toJson.rereadAs ofJson? = p.mapDoubles? Json.rereadFloat? := by
  have hdec (a b : Json) : ofJson? (.object [("exterior", a), ("interiors", b)]) = do
      return Polygon.mk (← coordsOfJson? a) (← (fun j => do (← j.array?).mapM coordsOfJson?) b) := by
    have hfields : Json.fields? ["exterior", "interiors"]
        (.object [("exterior", a), ("interiors", b)]) = some [a, b] := rfl
    simp [ofJson?, hfields, Option.bind_assoc]
  rw [toJson, Json.rereadAs_pair coordsOfJson? _ Polygon.mk hdec, rereadAs_coordsToJson,
    rereadAs_ringsToJson]
  rfl

/-! ## Geometries -/

namespace Geometry

mutual

/-- The geometry with a function applied to its coordinates, if it gives all of them. -/
def mapDoubles? (f : Float → Option Float) : Geometry → Option Geometry
  | point p => (p.mapDoubles? f).map point
  | line a b => do return line (← a.mapDoubles? f) (← b.mapDoubles? f)
  | lineString ps => (mapCoords? f ps).map lineString
  | polygon p => (p.mapDoubles? f).map polygon
  | multiPoint ps => (mapCoords? f ps).map multiPoint
  | multiLineString ls => (mapRings? f ls).map multiLineString
  | multiPolygon ps => (ps.mapM (Polygon.mapDoubles? f)).map multiPolygon
  | collection gs => (mapParts? f gs).map collection
  | rect b => do return rect ⟨← b.low.mapDoubles? f, ← b.high.mapDoubles? f⟩
  | triangle a b c => do
    return triangle (← a.mapDoubles? f) (← b.mapDoubles? f) (← c.mapDoubles? f)

/-- Several geometries with a function applied to their coordinates. -/
def mapParts? (f : Float → Option Float) : List Geometry → Option (List Geometry)
  | [] => some []
  | g :: gs => do return (← mapDoubles? f g) :: (← mapParts? f gs)

end

theorem rereadAs_kind {kind : String} (hkind : kind ≠ "GeometryCollection") (value : Json) :
    (Json.object [(kind, value)]).rereadAs ofJson? = value.rereadAs (ofKind? kind) := by
  have hread (value : Json) : ofJson? (.object [(kind, value)]) = ofKind? kind value := by
    rw [ofJson?.eq_def]
    split
    case h_1 heq => simp at heq; exact absurd heq.1 hkind
    case h_2 heq => simp at heq; rw [heq.1, heq.2]
    case h_3 h => exact absurd rfl (h kind value)
  rw [Json.rereadAs, Json.rereadAs, Json.renumber?, Json.renumberMembers?, Json.renumberMembers?]
  cases value.renumber? with
  | none => rfl
  | some value => exact hread value

theorem rereadAs_kindArray {α : Type} {kind : String} (dec : Json → Option α)
    (make : List α → Geometry)
    (hread : ∀ j, ofKind? kind j = do return make (← (← j.array?).mapM dec)) (j : Json) :
    j.rereadAs (ofKind? kind) = (j.rereadAs fun j => do (← j.array?).mapM dec).map make := by
  rw [← Json.rereadAs_map]
  congr 1
  funext j
  rw [hread]
  cases j.array? with
  | none => rfl
  | some items => cases hitems : items.mapM dec <;> simp [hitems]

mutual

/-- A geometry is read back with each coordinate read back. -/
theorem rereadAs_toJson : (g : Geometry) →
    g.toJson.rereadAs ofJson? = g.mapDoubles? Json.rereadFloat?
  | point p => by
    rw [toJson, rereadAs_kind (by decide), mapDoubles?, ← p.rereadAs_toJson]
    exact Json.rereadAs_map _ _ _
  | line a b => by
    rw [toJson, rereadAs_kind (by decide), mapDoubles?, ← a.rereadAs_toJson, ← b.rereadAs_toJson]
    exact Json.rereadAs_pair Coord.ofJson? Coord.ofJson? line (fun a b => rfl) _ _
  | lineString ps => by
    rw [toJson, rereadAs_kind (by decide), mapDoubles?, ← rereadAs_coordsToJson]
    exact Json.rereadAs_map _ _ _
  | polygon p => by
    rw [toJson, rereadAs_kind (by decide), mapDoubles?, ← p.rereadAs_toJson]
    exact Json.rereadAs_map _ _ _
  | multiPoint ps => by
    rw [toJson, rereadAs_kind (by decide), mapDoubles?, ← rereadAs_coordsToJson]
    exact Json.rereadAs_map _ _ _
  | multiLineString ls => by
    rw [toJson, rereadAs_kind (by decide), mapDoubles?, ← rereadAs_ringsToJson]
    exact rereadAs_kindArray coordsOfJson? multiLineString (fun j => rfl) _
  | multiPolygon ps => by
    rw [toJson, rereadAs_kind (by decide), mapDoubles?,
      ← Json.rereadAs_array fun p _ => p.rereadAs_toJson]
    exact rereadAs_kindArray Polygon.ofJson? multiPolygon (fun j => rfl) _
  | collection gs => by
    rw [toJson, mapDoubles?, ← rereadAs_partsToJson gs, Json.rereadAs, Json.renumber?,
      Json.renumberMembers?, Json.renumberMembers?, Json.renumber?]
    cases Json.renumberItems? (partsToJson gs) with
    | none => rfl
    | some items =>
      change ofJson? (.object [("GeometryCollection", .array items)]) = _
      rw [ofJson?]
      rfl
  | rect b => by
    rw [toJson, rereadAs_kind (by decide), mapDoubles?, ← b.low.rereadAs_toJson,
      ← b.high.rereadAs_toJson]
    exact Json.rereadAs_pair Coord.ofJson? Coord.ofJson? (fun a b => rect ⟨a, b⟩) (fun a b => rfl) _ _
  | triangle a b c => by
    -- A triangle is written like a list of points, and read if there are three.
    rw [toJson, rereadAs_kind (by decide), mapDoubles?]
    have hread := rereadAs_coordsToJson [a, b, c]
    have hkind : (coordsToJson [a, b, c]).rereadAs (ofKind? "Triangle") =
        ((coordsToJson [a, b, c]).rereadAs coordsOfJson?).bind fun
          | [a, b, c] => some (triangle a b c)
          | _ => none := (Option.bind_assoc _ _ _).symm
    rw [hkind, hread, mapCoords?, List.mapM_cons, List.mapM_cons, List.mapM_cons, List.mapM_nil]
    cases a.mapDoubles? Json.rereadFloat? <;> cases b.mapDoubles? Json.rereadFloat? <;>
      cases c.mapDoubles? Json.rereadFloat? <;> rfl

theorem rereadAs_partsToJson : (gs : List Geometry) →
    (Json.renumberItems? (partsToJson gs)).bind partsOfJson? = mapParts? Json.rereadFloat? gs
  | [] => rfl
  | g :: gs => by
    rw [partsToJson, mapParts?, ← rereadAs_toJson g, ← rereadAs_partsToJson gs,
      Json.renumberItems?, Json.rereadAs]
    cases g.toJson.renumber? with
    | none => rfl
    | some j =>
      cases Json.renumberItems? (partsToJson gs) with
      | none => cases hread : ofJson? j <;> simp [hread]
      | some js => simp [partsOfJson?]

end

end Geometry

end Reading

/-! ## Which coordinates are read back -/

section Lists

variable {α β : Type}

/-- A list is mapped when each member is. -/
theorem mapM_eq_some_iff {f : α → Option β} : {as : List α} → {bs : List β} →
    (as.mapM f = some bs ↔ (∀ a ∈ as, (f a).isSome) ∧ bs = as.filterMap f)
  | [], bs => ⟨fun h => ⟨nofun, (Option.some.inj h).symm⟩, fun h => congrArg some h.2.symm⟩
  | a :: as, bs => by
    rw [List.mapM_cons, List.forall_mem_cons]
    cases ha : f a with
    | none => simp
    | some b =>
      rw [List.filterMap_cons_some ha]
      constructor
      · intro h
        rw [Option.bind_eq_bind, Option.bind_some] at h
        obtain ⟨bs', hbs', h⟩ := Option.bind_eq_some_iff.1 h
        obtain ⟨hall, rfl⟩ := mapM_eq_some_iff.1 hbs'
        exact ⟨⟨rfl, hall⟩, (Option.some.inj h).symm⟩
      · rintro ⟨⟨-, hall⟩, rfl⟩
        rw [mapM_eq_some_iff.2 ⟨hall, rfl⟩]
        rfl

theorem exists_of_mapM {f : α → Option β} {as : List α} {bs : List β} (h : as.mapM f = some bs) :
    ∀ a ∈ as, ∃ b, f a = some b := fun a ha =>
  Option.isSome_iff_exists.1 ((mapM_eq_some_iff.1 h).1 a ha)

theorem mapM_self {f : α → Option α} : (as : List α) → (∀ a ∈ as, f a = some a) →
    as.mapM f = some as
  | [], _ => rfl
  | a :: as, h => by
    rw [List.mapM_cons, h a List.mem_cons_self,
      mapM_self as fun b hb => h b (List.mem_cons_of_mem _ hb)]
    rfl

end Lists

/-- The coordinates of a point. -/
def Coord.doubles (c : Coord) : List Float := [c.x, c.y]

/-- The coordinates of a geometry. -/
def Geometry.doubles (g : Geometry) : List Float := g.coords.flatMap Coord.doubles

variable {f : Float → Option Float}

theorem Coord.mapDoubles?_self {c : Coord} (h : ∀ x ∈ c.doubles, f x = some x) :
    c.mapDoubles? f = some c := by
  rw [mapDoubles?, h c.x (by simp [doubles]), h c.y (by simp [doubles])]
  rfl

/-- Whether a function gives both coordinates of a point. -/
def Coord.Gives (f : Float → Option Float) (c : Coord) : Prop :=
  ∀ x ∈ c.doubles, ∃ y, f x = some y

theorem Coord.gives_of_mapDoubles? {c c' : Coord} (h : c.mapDoubles? f = some c') : c.Gives f := by
  rw [mapDoubles?] at h
  obtain ⟨x, hx, h⟩ := Option.bind_eq_some_iff.1 h
  obtain ⟨y, hy, -⟩ := Option.bind_eq_some_iff.1 h
  simp [Gives, doubles, hx, hy]

theorem mapRings?_self {rings : List (List Coord)}
    (h : ∀ c ∈ rings.flatten, c.mapDoubles? f = some c) : mapRings? f rings = some rings :=
  mapM_self rings fun ring hring => mapM_self ring fun c hc => h c (List.mem_flatten_of_mem hring hc)

theorem gives_of_mapCoords? {cs cs' : List Coord} (h : mapCoords? f cs = some cs') :
    ∀ c ∈ cs, c.Gives f := fun c hc =>
  have ⟨_, hc'⟩ := exists_of_mapM h c hc
  Coord.gives_of_mapDoubles? hc'

theorem gives_of_mapRings? {rings rings' : List (List Coord)}
    (h : mapRings? f rings = some rings') : ∀ c ∈ rings.flatten, c.Gives f := by
  intro c hc
  obtain ⟨ring, hring, hc⟩ := List.mem_flatten.1 hc
  obtain ⟨ring', hring'⟩ := exists_of_mapM h ring hring
  exact gives_of_mapCoords? hring' c hc

theorem Polygon.mapDoubles?_self {p : Polygon} (h : ∀ c ∈ p.coords, c.mapDoubles? f = some c) :
    p.mapDoubles? f = some p := by
  rw [mapDoubles?, mapCoords?, mapM_self p.exterior fun c hc => h c (List.mem_append_left _ hc),
    mapRings?_self fun c hc => h c (List.mem_append_right _ hc)]
  rfl

theorem Polygon.gives_of_mapDoubles? {p p' : Polygon} (h : p.mapDoubles? f = some p') :
    ∀ c ∈ p.coords, c.Gives f := by
  rw [mapDoubles?] at h
  obtain ⟨exterior, hexterior, h⟩ := Option.bind_eq_some_iff.1 h
  obtain ⟨holes, hholes, -⟩ := Option.bind_eq_some_iff.1 h
  intro c hc
  exact (List.mem_append.1 hc).elim (gives_of_mapCoords? hexterior c) (gives_of_mapRings? hholes c)

namespace Geometry

mutual

/-- A geometry stays when its points do. -/
theorem mapDoubles?_self : (g : Geometry) → (∀ c ∈ g.coords, c.mapDoubles? f = some c) →
    g.mapDoubles? f = some g
  | point p, h => by rw [mapDoubles?, h p (by simp [coords])]; rfl
  | line a b, h => by
    rw [mapDoubles?, h a (by simp [coords]), h b (by simp [coords])]
    rfl
  | lineString ps, h | multiPoint ps, h => by rw [mapDoubles?, mapCoords?, mapM_self ps h]; rfl
  | polygon p, h => by rw [mapDoubles?, Polygon.mapDoubles?_self h]; rfl
  | multiLineString ls, h => by rw [mapDoubles?, mapRings?_self h]; rfl
  | multiPolygon ps, h => by
    rw [mapDoubles?, mapM_self ps fun p hp => Polygon.mapDoubles?_self fun c hc =>
      h c (List.mem_flatMap_of_mem hp hc)]
    rfl
  | collection gs, h => by rw [mapDoubles?, mapParts?_self gs h]; rfl
  | rect b, h => by
    rw [mapDoubles?, h b.low (by simp [coords]), h b.high (by simp [coords])]
    rfl
  | triangle a b c, h => by
    rw [mapDoubles?, h a (by simp [coords]), h b (by simp [coords]), h c (by simp [coords])]
    rfl

theorem mapParts?_self : (gs : List Geometry) →
    (∀ c ∈ coordsOfParts gs, c.mapDoubles? f = some c) → mapParts? f gs = some gs
  | [], _ => rfl
  | g :: gs, h => by
    rw [mapParts?, mapDoubles?_self g fun c hc => h c (List.mem_append_left _ hc),
      mapParts?_self gs fun c hc => h c (List.mem_append_right _ hc)]
    rfl

end

mutual

/-- A geometry is lost with any of its coordinates. -/
theorem gives_of_mapDoubles? : (g : Geometry) → {g' : Geometry} → g.mapDoubles? f = some g' →
    ∀ c ∈ g.coords, c.Gives f
  | point p, _, h => by
    obtain ⟨p', hp, -⟩ := Option.map_eq_some_iff.1 h
    simpa [coords] using Coord.gives_of_mapDoubles? hp
  | line a b, _, h => by
    obtain ⟨a', ha, h⟩ := Option.bind_eq_some_iff.1 h
    obtain ⟨b', hb, -⟩ := Option.bind_eq_some_iff.1 h
    simp [coords, Coord.gives_of_mapDoubles? ha, Coord.gives_of_mapDoubles? hb]
  | lineString ps, _, h | multiPoint ps, _, h =>
    have ⟨_, hps, _⟩ := Option.map_eq_some_iff.1 h
    gives_of_mapCoords? hps
  | polygon p, _, h =>
    have ⟨_, hp, _⟩ := Option.map_eq_some_iff.1 h
    Polygon.gives_of_mapDoubles? hp
  | multiLineString ls, _, h =>
    have ⟨_, hls, _⟩ := Option.map_eq_some_iff.1 h
    gives_of_mapRings? hls
  | multiPolygon ps, _, h => by
    obtain ⟨ps', hps, -⟩ := Option.map_eq_some_iff.1 h
    intro c hc
    obtain ⟨p, hp, hc⟩ := List.mem_flatMap.1 hc
    obtain ⟨p', hp'⟩ := exists_of_mapM hps p hp
    exact Polygon.gives_of_mapDoubles? hp' c hc
  | collection gs, _, h =>
    have ⟨_, hgs, _⟩ := Option.map_eq_some_iff.1 h
    gives_of_mapParts? gs hgs
  | rect b, _, h => by
    obtain ⟨low, hlow, h⟩ := Option.bind_eq_some_iff.1 h
    obtain ⟨high, hhigh, -⟩ := Option.bind_eq_some_iff.1 h
    have hlow := Coord.gives_of_mapDoubles? hlow
    have hhigh := Coord.gives_of_mapDoubles? hhigh
    simp only [Coord.Gives, Coord.doubles, List.forall_mem_cons] at hlow hhigh
    simp [coords, Coord.Gives, Coord.doubles, hlow, hhigh]
  | triangle a b c, _, h => by
    obtain ⟨a', ha, h⟩ := Option.bind_eq_some_iff.1 h
    obtain ⟨b', hb, h⟩ := Option.bind_eq_some_iff.1 h
    obtain ⟨c', hc, -⟩ := Option.bind_eq_some_iff.1 h
    simp [coords, Coord.gives_of_mapDoubles? ha, Coord.gives_of_mapDoubles? hb,
      Coord.gives_of_mapDoubles? hc]

theorem gives_of_mapParts? : (gs : List Geometry) → {gs' : List Geometry} →
    mapParts? f gs = some gs' → ∀ c ∈ coordsOfParts gs, c.Gives f
  | [], _, _ => nofun
  | g :: gs, _, h => by
    obtain ⟨g', hg, h⟩ := Option.bind_eq_some_iff.1 h
    obtain ⟨gs', hgs, -⟩ := Option.bind_eq_some_iff.1 h
    intro c hc
    exact (List.mem_append.1 hc).elim (gives_of_mapDoubles? g hg c) (gives_of_mapParts? gs hgs c)

end

end Geometry

end StreamCatalog
