import QosKernel.Fs.CVfs

/-! # Tokens of a string

`qos_strtok` of `c-os/libc/libc.c`.
-/
namespace QosKernel.Libc
/-- The memory of the string, and `g_save` as an offset in it. -/
structure Strtok where
  mem : List UInt8
  g_save : Option Nat

/-- The C string at an offset. -/
def Strtok.text (s : Strtok) (p : Nat) : CStr := (s.mem.drop p).takeWhile (· ≠ 0)

def qos_strtok (delim : CStr) (str : Option Nat) (s : Strtok) : Option Nat × Strtok :=
  if delim = [] then (none, s)
  else
    match str.or s.g_save with
    | none => (none, s)
    | some save =>
      let start := save + ((s.text save).takeWhile (· ∈ delim)).length
      if s.text start = [] then (none, { s with g_save := none })
      else
        let p := start + ((s.text start).takeWhile (· ∉ delim)).length
        if s.text p = [] then (some start, { s with g_save := none })
        else (some start, ⟨s.mem.set p 0, some (p + 1)⟩)

/-- A call on the string at `p` and then calls with a null pointer. -/
def strtokCall (delim : CStr) (p : Nat) (s : Strtok) : Nat → Option Nat × Strtok
  | 0 => qos_strtok delim (some p) s
  | n + 1 => qos_strtok delim none (strtokCall delim p s n).2

/-- The maximal runs of characters that are no delimiters. -/
def tokens (delim s : CStr) : List CStr := (s.splitOnP (· ∈ delim)).filter (· ≠ [])

variable {delim t u : CStr} {s : Strtok} {k : Nat}
/-- The string at offset `k` is `t`. -/
def At (s : Strtok) (k : Nat) (t : CStr) : Prop :=
  0 ∉ t ∧ ∃ pre rest, s.mem = pre ++ (t ++ 0 :: rest) ∧ pre.length = k

theorem At.text (h : At s k t) : s.text k = t := by
  obtain ⟨h0, pre, rest, hmem, rfl⟩ := h
  rw [Strtok.text, hmem, List.drop_left, List.takeWhile_append_of_pos]
  · simp
  exact fun c hc => decide_eq_true fun h => h0 (h ▸ hc)

theorem At.right (h : At s k (t ++ u)) : At s (k + t.length) u := by
  obtain ⟨h0, pre, rest, hmem, rfl⟩ := h
  exact ⟨fun h => h0 (List.mem_append_right t h), pre ++ t, rest, by simp [hmem], by simp⟩

theorem tokens_skip (hall : ∀ c ∈ t, c ∈ delim) (u : CStr) :
    tokens delim (t ++ u) = tokens delim u := by
  induction t with
  | nil => rfl
  | cons c t ih =>
  obtain ⟨hc, hall⟩ := List.forall_mem_cons.mp hall
  rw [← ih hall, List.cons_append, tokens, List.splitOnP_cons_eq_if_modifyHead,
    if_pos (decide_eq_true hc)]
  rfl

/-- What is left to return. -/
def Left (delim : CStr) (s : Strtok) (l : List CStr) : Prop :=
  s.g_save = none ∧ l = [] ∨ ∃ k t, s.g_save = some k ∧ At s k t ∧ tokens delim t = l

theorem exists_run (p : UInt8 → Bool) (t : CStr) : ∃ a b, t = a ++ b ∧ t.takeWhile p = a ∧
    (∀ c ∈ a, p c = true) ∧ ∀ c ∈ b.head?, p c = false := by
  refine ⟨_, _, List.takeWhile_append_dropWhile.symm, rfl,
    List.all_eq_true.mp List.all_takeWhile, fun c hc => ?_⟩
  have hnot := List.head?_dropWhile_not p t
  rwa [hc] at hnot

theorem strtok_left (hd : delim ≠ []) {l : List CStr} (h : Left delim s l) :
    ∃ r s', qos_strtok delim none s = (r, s') ∧ r.map s'.text = l.head? ∧ Left delim s' l.tail := by
  rw [qos_strtok, if_neg hd, Option.none_or]
  obtain ⟨hsave, rfl⟩ | ⟨k, t, hsave, hat, rfl⟩ := h <;> rw [hsave]
  · exact ⟨_, _, rfl, rfl, .inl ⟨hsave, rfl⟩⟩
  dsimp only
  -- first the delimiters in front, then the characters of the token
  obtain ⟨a, u, rfl, ha, hskip, hu⟩ := exists_run (· ∈ delim) t
  rw [hat.text, ha, hat.right.text, tokens_skip fun c hc => of_decide_eq_true (hskip c hc)]
  have hat := hat.right
  obtain ⟨w, v, rfl, hw, htoken, hv⟩ := exists_run (· ∉ delim) u
  have htoken : ∀ c ∈ w, decide (c ∈ delim) = false := fun c hc => by simpa using htoken c hc
  rw [hw, hat.right.text]
  cases v with
  | nil =>
    rw [List.append_nil] at hat ⊢
    by_cases hnil : w = []
    · rw [if_pos hnil, hnil]
      exact ⟨_, _, rfl, rfl, .inl ⟨rfl, rfl⟩⟩
    rw [if_neg hnil, if_pos rfl, tokens, List.splitOnP_eq_singleton htoken]
    refine ⟨_, _, rfl, ?_, .inl ⟨rfl, ?_⟩⟩
    · simp [hnil]
      exact hat.text
    simp [hnil]
  | cons c v =>
  have hc : c ∈ delim := by simpa using hv c rfl
  have hnil : w ≠ [] := by
    rintro rfl
    simpa [hc] using hu c rfl
  rw [if_neg (by simp), if_neg (by simp), tokens,
    List.splitOnP_append_cons_of_forall_mem htoken c (decide_eq_true hc),
    List.filter_cons_of_pos (by simpa using hnil)]
  obtain ⟨h0, pre, rest, hmem, hlen⟩ := hat
  rw [List.mem_append, List.mem_cons, not_or, not_or] at h0
  have hset : s.mem.set (k + a.length + w.length) 0 = pre ++ (w ++ 0 :: (v ++ 0 :: rest)) := by
    rw [hmem, ← hlen]
    simp
  refine ⟨_, _, rfl, ?_, .inr ⟨_, v, rfl, ⟨h0.2.2, pre ++ w ++ [0], rest, ?_, ?_⟩, rfl⟩⟩
  · exact congrArg some (At.text ⟨h0.1, pre, v ++ 0 :: rest, hset, hlen⟩)
  · rw [hset]
    simp
  simp [hlen, Nat.add_assoc]

/-- The calls return the tokens in order, and null after the last one. -/
theorem strtok_tokens {t : CStr} (ht : 0 ∉ t) (hd : delim ≠ []) (rest : List UInt8)
    (g_save : Option Nat) (n : Nat) :
    let r := strtokCall delim 0 ⟨t ++ 0 :: rest, g_save⟩ n
    r.1.map r.2.text = (tokens delim t)[n]? := by
  have hleft : ∀ n, ∃ r s', strtokCall delim 0 ⟨t ++ 0 :: rest, g_save⟩ n = (r, s') ∧
      r.map s'.text = (tokens delim t)[n]? ∧ Left delim s' ((tokens delim t).drop (n + 1)) := by
    intro n
    induction n with
    | zero =>
      -- the first call sets `g_save` to the string
      have hstart : qos_strtok delim (some 0) ⟨t ++ 0 :: rest, g_save⟩ =
          qos_strtok delim none ⟨t ++ 0 :: rest, some 0⟩ := by
        simp only [qos_strtok, if_neg hd]
        rfl
      rw [strtokCall, hstart, ← List.head?_eq_getElem?, List.drop_one]
      exact strtok_left hd (.inr ⟨0, t, rfl, ⟨ht, [], rest, rfl, rfl⟩, rfl⟩)
    | succ n ih =>
    obtain ⟨r, s', hr, -, hleft⟩ := ih
    obtain ⟨r', s'', hr', htext, hleft⟩ := strtok_left hd hleft
    rw [List.head?_drop] at htext
    rw [List.tail_drop] at hleft
    exact ⟨r', s'', by rw [strtokCall, hr, hr'], htext, hleft⟩
  obtain ⟨r, s', hr, htext, -⟩ := hleft n
  intro r
  rw [show r = _ from hr]
  exact htext

theorem strtok_tokens_second :
    let r := strtokCall [32] 0 ⟨[97, 32, 98, 0], none⟩ 1
    r.1.map r.2.text = some [98] :=
  @strtok_tokens [32] [97, 32, 98] (by decide) (by decide) [] none 1
end QosKernel.Libc
