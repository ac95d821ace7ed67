import ShaderCompat.Yaml.Reader

/-!
# Values in flow style

`flowTokens` is what a value is cut into when all of it is written with brackets and braces and
every key of a mapping is found. Any value is read back from these tokens (`node_flowTokens`).
-/

namespace ShaderCompat.Yaml

mutual

/-- The tokens of a value in flow style. -/
def flowTokens : Yaml → List Token
  | .scalar plain text => [.scalar plain text]
  | .sequence [] => [.flowSequenceStart, .flowSequenceEnd]
  | .sequence (v :: vs) => .flowSequenceStart :: flowTokens v ++ itemTokens vs
  | .mapping [] => [.flowMappingStart, .flowMappingEnd]
  | .mapping ((k, v) :: ps) =>
    .flowMappingStart :: .key :: flowTokens k ++ .value :: flowTokens v ++ pairTokens ps

/-- The items after the first one, and the closing bracket. -/
def itemTokens : List Yaml → List Token
  | [] => [.flowSequenceEnd]
  | v :: vs => .flowEntry :: flowTokens v ++ itemTokens vs

/-- The pairs after the first one, and the closing brace. -/
def pairTokens : List (Yaml × Yaml) → List Token
  | [] => [.flowMappingEnd]
  | (k, v) :: ps => .flowEntry :: .key :: flowTokens k ++ .value :: flowTokens v ++ pairTokens ps

end

/-- The tokens that a value in flow style can start with. -/
def startsFlow : Token → Bool
  | .scalar .. | .flowSequenceStart | .flowMappingStart => true
  | _ => false

/-- The tokens of a value start with one for which `startsFlow` holds. -/
theorem flowTokens_head (v : Yaml) :
    ∃ t ts, v.flowTokens = t :: ts ∧ startsFlow t = true := by
  cases v with
  | scalar plain text => exact ⟨_, _, rfl, rfl⟩
  | sequence vs => cases vs <;> exact ⟨_, _, rfl, rfl⟩
  | mapping ps => cases ps <;> exact ⟨_, _, rfl, rfl⟩

/-- Where a value starts, `nodeBefore` does not stop but reads it. -/
theorem nodeBefore_flowTokens {fuel : Nat} {stops : List Token}
    (hstops : ∀ t ∈ stops, startsFlow t = false) {inBlock flush : Bool} (v : Yaml)
    (rest : List Token) :
    nodeBefore (fuel + 1) stops inBlock flush (v.flowTokens ++ rest) =
      node fuel inBlock flush (v.flowTokens ++ rest) := by
  obtain ⟨t, ts, hts, hstart⟩ := flowTokens_head v
  rw [hts, nodeBefore]
  refine if_neg fun h => ?_
  have hstop := hstops t (List.contains_iff_mem.mp h)
  rw [hstart] at hstop
  contradiction

/-- `node` reads a value from its tokens, whatever comes behind them. -/
def ReadBack (v : Yaml) : Prop :=
  ∀ (fuel : Nat) (inBlock flush : Bool) (rest : List Token), 4 * v.flowTokens.length ≤ fuel →
    node fuel inBlock flush (v.flowTokens ++ rest) = some (v, rest)

/-- `flowItems` reads the items behind the first one from their tokens. -/
def ItemsReadBack (vs : List Yaml) : Prop :=
  ∀ (fuel : Nat) (rest : List Token), 4 * (itemTokens vs).length ≤ fuel →
    flowItems fuel false (itemTokens vs ++ rest) = some (vs, rest)

/-- `flowPairs` reads the pairs behind the first one from their tokens. -/
def PairsReadBack (ps : List (Yaml × Yaml)) : Prop :=
  ∀ (fuel : Nat) (rest : List Token), 4 * (pairTokens ps).length ≤ fuel →
    flowPairs fuel false (pairTokens ps ++ rest) = some (ps, rest)

section

variable {v k : Yaml} {vs : List Yaml} {ps : List (Yaml × Yaml)} {fuel : Nat}

/-- An item is a value and then the other items. -/
theorem flowItems_cons {t : Token} (h : startsFlow t = true) (ts : List Token) :
    flowItems (fuel + 1) true (t :: ts) =
      (node fuel false false (t :: ts) >>= fun (item, rest) =>
        flowItems fuel false rest >>= fun (items, rest) => some (item :: items, rest)) := by
  cases t <;> first | rfl | contradiction

/-- Items are read back, if the first one is and the others are. -/
theorem flowItems_item (hv : v.ReadBack) (hvs : ItemsReadBack vs) (rest : List Token)
    (hfuel : 4 * (itemTokens (v :: vs)).length ≤ fuel + 1) :
    flowItems fuel true (v.flowTokens ++ (itemTokens vs ++ rest)) = some (v :: vs, rest) := by
  simp only [itemTokens, List.cons_append, List.length_cons, List.length_append] at hfuel
  obtain ⟨fuel, rfl⟩ : ∃ n, fuel = n + 1 := ⟨fuel - 1, by omega⟩
  have hnode := hv fuel false false (itemTokens vs ++ rest) (by omega)
  have htail := hvs fuel rest (by omega)
  obtain ⟨t, ts, hts, hstart⟩ := flowTokens_head v
  rw [hts] at hnode ⊢
  rw [List.cons_append] at hnode ⊢
  rw [flowItems_cons hstart, hnode]
  change (flowItems fuel false (itemTokens vs ++ rest) >>= fun x => _) = _
  rw [htail]
  rfl

/-- Behind a comma there is an item. -/
theorem flowItems_entry (v : Yaml) (ts : List Token) :
    flowItems fuel false (.flowEntry :: (v.flowTokens ++ ts)) =
      flowItems fuel true (v.flowTokens ++ ts) := by
  obtain ⟨t, ts', hts, -⟩ := flowTokens_head v
  rw [hts]
  cases fuel with
  | zero => rfl
  | succ fuel => cases t <;> rfl

/-- Pairs are read back, if key and value of the first one are and the others are. -/
theorem flowPairs_pair (hk : k.ReadBack) (hv : v.ReadBack) (hps : PairsReadBack ps)
    (rest : List Token) (hfuel : 4 * (pairTokens ((k, v) :: ps)).length ≤ fuel + 1) :
    flowPairs fuel true
        (.key :: (k.flowTokens ++ .value :: (v.flowTokens ++ (pairTokens ps ++ rest)))) =
      some ((k, v) :: ps, rest) := by
  simp only [pairTokens, List.cons_append, List.length_cons, List.length_append] at hfuel
  obtain ⟨fuel, rfl⟩ : ∃ n, fuel = n + 3 := ⟨fuel - 3, by omega⟩
  -- the key is read up to the mark of its value, and the value up to a comma or a brace
  have hkey : nodeBefore (fuel + 2) [.value, .flowEntry, .flowMappingEnd] false false
      (k.flowTokens ++ .value :: (v.flowTokens ++ (pairTokens ps ++ rest))) =
      some (k, .value :: (v.flowTokens ++ (pairTokens ps ++ rest))) := by
    rw [nodeBefore_flowTokens (by decide)]
    exact hk _ _ _ _ (by omega)
  have hvalue : nodeBefore (fuel + 1) [.flowEntry, .flowMappingEnd] false false
      (v.flowTokens ++ (pairTokens ps ++ rest)) = some (v, pairTokens ps ++ rest) := by
    rw [nodeBefore_flowTokens (by decide)]
    exact hv _ _ _ _ (by omega)
  have htail : flowPairs (fuel + 2) false (pairTokens ps ++ rest) = some (ps, rest) :=
    hps _ _ (by omega)
  change (nodeBefore (fuel + 2) [.value, .flowEntry, .flowMappingEnd] false false
    (k.flowTokens ++ .value :: (v.flowTokens ++ (pairTokens ps ++ rest))) >>= fun x => _) = _
  rw [hkey]
  change (nodeBefore (fuel + 1) [.flowEntry, .flowMappingEnd] false false
    (v.flowTokens ++ (pairTokens ps ++ rest)) >>= fun x => _) = _
  rw [hvalue]
  change (flowPairs (fuel + 2) false (pairTokens ps ++ rest) >>= fun x => _) = _
  rw [htail]
  rfl

/-- Behind a comma there is a key. -/
theorem flowPairs_entry (ts : List Token) :
    flowPairs fuel false (.flowEntry :: .key :: ts) = flowPairs fuel true (.key :: ts) := by
  cases fuel with
  | zero => rfl
  | succ fuel => rfl

end

mutual

/-- Every value is read back from its tokens, by recursion over the value with its items and pairs.
-/
theorem node_flowTokens : ∀ v : Yaml, v.ReadBack
  | .scalar plain text, fuel, inBlock, flush, rest, hfuel => by
      obtain ⟨fuel, rfl⟩ : ∃ n, fuel = n + 1 := ⟨fuel - 1, by simp [flowTokens] at hfuel; omega⟩
      rfl
  | .sequence [], fuel, inBlock, flush, rest, hfuel => by
      obtain ⟨fuel, rfl⟩ : ∃ n, fuel = n + 2 := ⟨fuel - 2, by simp [flowTokens] at hfuel; omega⟩
      rfl
  | .sequence (v :: vs), fuel, inBlock, flush, rest, hfuel => by
      have hv := node_flowTokens v
      have hvs := flowItems_itemTokens vs
      obtain ⟨fuel, rfl⟩ : ∃ n, fuel = n + 1 := ⟨fuel - 1, by simp [flowTokens] at hfuel; omega⟩
      have hitems := flowItems_item hv hvs rest hfuel
      simp only [flowTokens, List.cons_append, List.append_assoc]
      change (flowItems fuel true _ >>= fun x => _) = _
      rw [hitems]
      rfl
  | .mapping [], fuel, inBlock, flush, rest, hfuel => by
      obtain ⟨fuel, rfl⟩ : ∃ n, fuel = n + 2 := ⟨fuel - 2, by simp [flowTokens] at hfuel; omega⟩
      rfl
  | .mapping ((k, v) :: ps), fuel, inBlock, flush, rest, hfuel => by
      have hk := node_flowTokens k
      have hv := node_flowTokens v
      have hps := flowPairs_pairTokens ps
      obtain ⟨fuel, rfl⟩ : ∃ n, fuel = n + 1 := ⟨fuel - 1, by simp [flowTokens] at hfuel; omega⟩
      have hpairs := flowPairs_pair hk hv hps rest hfuel
      simp only [flowTokens, List.cons_append, List.append_assoc]
      change (flowPairs fuel true _ >>= fun x => _) = _
      rw [hpairs]
      rfl

/-- Items are read back from their tokens. -/
theorem flowItems_itemTokens : ∀ vs : List Yaml, ItemsReadBack vs
  | [], fuel, rest, hfuel => by
      obtain ⟨fuel, rfl⟩ : ∃ n, fuel = n + 1 := ⟨fuel - 1, by simp [itemTokens] at hfuel; omega⟩
      rfl
  | v :: vs, fuel, rest, hfuel => by
      have hv := node_flowTokens v
      have hvs := flowItems_itemTokens vs
      simp only [itemTokens, List.cons_append, List.append_assoc]
      rw [flowItems_entry]
      exact flowItems_item hv hvs rest (Nat.le_succ_of_le hfuel)

/-- Pairs are read back from their tokens. -/
theorem flowPairs_pairTokens : ∀ ps : List (Yaml × Yaml), PairsReadBack ps
  | [], fuel, rest, hfuel => by
      obtain ⟨fuel, rfl⟩ : ∃ n, fuel = n + 1 := ⟨fuel - 1, by simp [pairTokens] at hfuel; omega⟩
      rfl
  | (k, v) :: ps, fuel, rest, hfuel => by
      have hk := node_flowTokens k
      have hv := node_flowTokens v
      have hps := flowPairs_pairTokens ps
      simp only [pairTokens, List.cons_append, List.append_assoc]
      rw [flowPairs_entry]
      exact flowPairs_pair hk hv hps rest (Nat.le_succ_of_le hfuel)

end

/-- A document in flow style is read back from its tokens: `content` has fuel enough. -/
theorem content_flowTokens (v : Yaml) :
    content (4 * v.flowTokens.length + 4) v.flowTokens = some (v, []) := by
  have hnode := node_flowTokens v (4 * v.flowTokens.length + 4) true false [] (by omega)
  rw [List.append_nil] at hnode
  obtain ⟨t, ts, hts, hstart⟩ := flowTokens_head v
  rw [hts] at hnode ⊢
  cases t <;> first | exact hnode | contradiction

end ShaderCompat.Yaml
