import AtomicStyle.Namespace.ClassMap
import AtomicStyle.Proofs.LastWins

/-!
# What merged class maps say

Class maps are merged entry by entry, as if all their entries came one after the other
(`keepsLast_mergeMaps`).

**Keys.**  The merged map has the keys of all maps, each where it comes first, and says of a key
what the last map that has it says (`mergeMaps_eq`).  Saying that there are no classes is saying
something: such a key keeps its place, and is passed over only when the classes are written.

**Parts.**  So absent maps make no difference, a sequence of maps may be merged in two halves
(`mergeMaps_halves`), and a key that was taken away and comes again is found where it was
(`mergeMaps_again`).
-/

namespace AtomicStyle

namespace ClassMap

/-! ## The entries of several maps -/

/-- The entries of several maps, in order.  An absent map has none. -/
def entriesIn (maps : List (Option ClassMap)) : List (Key × Option String) :=
  maps.flatMap fun map => map.getD []

/-- The keys of several maps, each where it comes first. -/
def keysIn (maps : List (Option ClassMap)) : List Key :=
  ((entriesIn maps).map Prod.fst).eraseDups

/-- What a map says of a key: what its entry for the key holds, the last one if there are several. -/
def says? (key : Key) (map : ClassMap) : Option (Option String) :=
  (map.reverse.find? (·.1 = key)).map Prod.snd

/-- What the last of several maps that has a key says of it. -/
def lastSaid? (maps : List (Option ClassMap)) (key : Key) : Option (Option String) :=
  maps.reverse.findSome? fun map => says? key (map.getD [])

/-- The classes that the last map with the key gives it, if it gives it any. -/
def lastClasses? (maps : List (Option ClassMap)) (key : Key) : Option String :=
  (lastSaid? maps key).join.filter fun classes => !classes.isEmpty

/-- One map that says of each key what the last of several maps says, with the keys where they come
first. -/
def lastSaid (maps : List (Option ClassMap)) : ClassMap :=
  (keysIn maps).filterMap fun key => (lastSaid? maps key).map (key, ·)

/-- Whether an argument is a map that holds anything. -/
def isGiven (map : Option ClassMap) : Bool :=
  !(map.getD []).isEmpty

lemma entriesIn_append (front back : List (Option ClassMap)) :
    entriesIn (front ++ back) = entriesIn front ++ entriesIn back :=
  List.flatMap_append

/-- Arguments that hold nothing have no entries. -/
lemma entriesIn_filter_isGiven (maps : List (Option ClassMap)) :
    entriesIn (maps.filter isGiven) = entriesIn maps := by
  induction maps with
  | nil => rfl
  | cons map maps ih =>
      rw [List.filter_cons]
      split_ifs with hgiven
      · exact congrArg (map.getD [] ++ ·) ih
      · have hempty : map.getD [] = [] := by simpa [isGiven] using hgiven
        rw [ih, entriesIn, entriesIn, List.flatMap_cons, hempty, List.nil_append]

/-- The last entry for a key is what the last map that has the key says of it. -/
lemma find?_entriesIn (maps : List (Option ClassMap)) (key : Key) :
    (entriesIn maps).reverse.find? (·.1 = key) = (lastSaid? maps key).map (key, ·) := by
  have hsays : ∀ map : ClassMap,
      map.reverse.find? (·.1 = key) = (says? key map).map (key, ·) := by
    intro map
    rw [says?, Option.map_map]
    cases hfound : map.reverse.find? (·.1 = key) with
    | none => rfl
    | some entry =>
        obtain rfl : entry.1 = key := by simpa using List.find?_some hfound
        rfl
  rw [entriesIn, List.reverse_flatMap, List.find?_flatMap, lastSaid?, List.map_findSome?]
  exact congrArg (maps.reverse.findSome? ·) (funext fun map => hsays _)

/-! ## Merging -/

lemma put_eq_settle (key : Key) (classes : Option String) (map : ClassMap) :
    put key classes map = settle Prod.fst (key, classes) map := by
  induction map with
  | nil => rfl
  | cons entry rest ih =>
      rw [put, settle, ih]
      split_ifs with hkey
      · rw [hkey]
      · rfl

/-- **A merged map holds the last entry of each key**, in the order in which the keys first come. -/
theorem keepsLast_mergeMaps (maps : List (Option ClassMap)) :
    KeepsLast Prod.fst (entriesIn maps) (mergeMaps maps) := by
  have hmerged : mergeMaps maps = settleAll Prod.fst (entriesIn maps) := by
    rw [settleAll, entriesIn, List.foldl_flatMap]
    simp only [mergeMaps, putAll, put_eq_settle]
  rw [hmerged]
  exact keepsLast_settleAll _ _

lemma map_fst_mergeMaps (maps : List (Option ClassMap)) :
    (mergeMaps maps).map Prod.fst = keysIn maps :=
  (keepsLast_mergeMaps maps).keys

/-- **A merged map says of each key what the last map that has it says.** -/
theorem mergeMaps_eq (maps : List (Option ClassMap)) : mergeMaps maps = lastSaid maps := by
  rw [(keepsLast_mergeMaps maps).eq_filterMap, lastSaid, keysIn]
  exact List.filterMap_congr fun key _ => find?_entriesIn maps key

/-- The classes that are there are those of the keys that have any in the end. -/
lemma present_lastSaid (maps : List (Option ClassMap)) :
    present (lastSaid maps) = (keysIn maps).filterMap (lastClasses? maps) := by
  rw [present, lastSaid, List.filterMap_filterMap, List.filter_filterMap]
  refine List.filterMap_congr fun key _ => ?_
  rw [lastClasses?]
  cases lastSaid? maps key <;> rfl

/-! ## Parts -/

lemma mergeMaps_congr {maps others : List (Option ClassMap)}
    (h : entriesIn maps = entriesIn others) : mergeMaps maps = mergeMaps others :=
  (keepsLast_mergeMaps maps).unique (h ▸ keepsLast_mergeMaps others)

/-- **Maps may be merged in two halves.** -/
theorem mergeMaps_halves (front back : List (Option ClassMap)) :
    mergeMaps [some (lastSaid front), some (lastSaid back)] = mergeMaps (front ++ back) := by
  have hwhole := keepsLast_mergeMaps [some (mergeMaps front), some (mergeMaps back)]
  have hentries : entriesIn [some (mergeMaps front), some (mergeMaps back)] =
      mergeMaps front ++ mergeMaps back := by simp [entriesIn]
  rw [hentries] at hwhole
  have hsame := (keepsLast_mergeMaps front).append (keepsLast_mergeMaps back) hwhole
  rw [← entriesIn_append] at hsame
  rw [← mergeMaps_eq, ← mergeMaps_eq]
  exact hsame.unique (keepsLast_mergeMaps (front ++ back))

/-- Later maps add their keys behind those that were there. -/
lemma keysIn_prefix_append (front back : List (Option ClassMap)) :
    keysIn front <+: keysIn (front ++ back) := by
  rw [keysIn, keysIn, entriesIn_append, List.map_append]
  exact eraseDups_prefix_append _ _

/-- **A key that is taken away and comes again is found where it was.** -/
theorem mergeMaps_again {front : List (Option ClassMap)} {key : Key} (h : key ∈ keysIn front)
    (between : List (Option ClassMap)) (classes : String) :
    mergeMaps (front ++ some [(key, none)] :: between ++ [some [(key, some classes)]]) =
      (mergeMaps (front ++ between)).map fun entry =>
        if entry.1 = key then (key, some classes) else entry := by
  have hentries :
      entriesIn (front ++ some [(key, none)] :: between ++ [some [(key, some classes)]]) =
        entriesIn front ++ (key, none) :: (entriesIn between ++ [(key, some classes)]) := by
    simp [entriesIn]
  have hset := (keepsLast_mergeMaps (front ++ between)).settle (key, some classes)
  rw [entriesIn_append, List.append_assoc] at hset
  have hagain : KeepsLast Prod.fst
      (entriesIn front ++ (key, none) :: (entriesIn between ++ [(key, some classes)]))
      (settle Prod.fst (key, some classes) (mergeMaps (front ++ between))) :=
    hset.insert (List.mem_eraseDups.mp h) (by simp)
  rw [← hentries] at hagain
  have hheld : key ∈ (mergeMaps (front ++ between)).map Prod.fst := by
    rw [map_fst_mergeMaps]
    exact (keysIn_prefix_append front between).subset h
  rw [(keepsLast_mergeMaps _).unique hagain, settle_of_mem (keepsLast_mergeMaps _).nodup hheld]

/-- **The last map that has a key decides.**  The class text of several maps is made of the classes
that the last map with each key gives it, if it gives it any, in the order in which the keys first
come.  So arguments that hold nothing make no difference wherever they stand, either half of the
maps may be merged into one map first, and a key keeps its place when it is taken away and comes
again. -/
theorem mergeClasses_eq_lastClasses (maps : List (Option ClassMap)) :
    mergeClasses maps = spaced ((keysIn maps).filterMap (lastClasses? maps)) ∧
      mergeClasses (maps.filter isGiven) = mergeClasses maps ∧
      (∀ front back, maps = front ++ back →
        mergeClasses [some (lastSaid front), some (lastSaid back)] = mergeClasses maps ∧
          keysIn front <+: (mergeMaps maps).map Prod.fst) ∧
      ∀ key ∈ keysIn maps, ∀ between classes,
        mergeClasses (maps ++ some [(key, none)] :: between ++ [some [(key, some classes)]]) =
          spaced (present ((mergeMaps (maps ++ between)).map fun entry =>
            if entry.1 = key then (key, some classes) else entry)) := by
  refine ⟨?_, ?_, ?_, fun key hkey between classes => ?_⟩
  · rw [mergeClasses, mergeMaps_eq, present_lastSaid]
  · rw [mergeClasses, mergeMaps_congr (entriesIn_filter_isGiven maps), mergeClasses]
  · rintro front back rfl
    rw [mergeClasses, mergeMaps_halves, mergeClasses, map_fst_mergeMaps]
    exact ⟨rfl, keysIn_prefix_append front back⟩
  · rw [mergeClasses, mergeMaps_again hkey]

/-- A color that is taken away and given again, between arguments that hold nothing. -/
theorem mergeClasses_eq_lastClasses_of_color :
    ∃ front back : List (Option ClassMap),
      front = [some [(.text "color", some "a"), (.text "width", some "b")], none,
          some [(.text "color", none)]] ∧
        back = [some [], some [(.text "height", some ""), (.text "color", some "c d")]] ∧
        mergeClasses (front ++ back) = "c d b" ∧
        mergeClasses ((front ++ back).filter isGiven) = "c d b" ∧
        mergeClasses [some (lastSaid front), some (lastSaid back)] = "c d b" ∧
        keysIn front = [.text "color", .text "width"] ∧
        mergeClasses (front ++ some [(.text "color", none)] :: back ++
          [some [(.text "color", some "e")]]) = "e b" := by
  refine ⟨_, _, rfl, rfl, ?_⟩
  obtain ⟨htext, hgiven, hhalves, _⟩ := mergeClasses_eq_lastClasses
    ([some [(.text "color", some "a"), (.text "width", some "b")], none,
        some [(.text "color", none)]] ++
      [some [], some [(.text "height", some ""), (.text "color", some "c d")]])
  obtain ⟨_, _, _, hagain⟩ := mergeClasses_eq_lastClasses
    [some [(.text "color", some "a"), (.text "width", some "b")], none,
      some [(.text "color", none)]]
  have hwhole := htext.trans (show _ = "c d b" by decide)
  refine ⟨hwhole, hgiven.trans hwhole, (hhalves _ _ rfl).1.trans hwhole, by decide, ?_⟩
  exact (hagain (.text "color") (by decide) _ "e").trans (by decide)

end ClassMap

end AtomicStyle
