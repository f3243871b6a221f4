import SyntaxWatch.Proofs.Text.Pieces
import SyntaxWatch.Text.Utf8

/-!
# Line feeds in decoded text

The byte `0x0A` is the feed wherever it stands: it continues no character, so a truncated one before
it ends there, and nothing else is read as a feed, neither a longer form nor a fault. Decoding can
therefore be done line by line (`pieces_decodeLossy`), whatever bytes the lines are made of.
-/

set_option autoImplicit false

namespace SyntaxWatch.Text.Utf8

/-! ## 1. One character before a feed -/

/-- What a first byte announces never lets a byte below `0x80` follow. -/
theorem lead?_lower {b : UInt8} {l : Lead} (h : lead? b = some l) : 0x80 ≤ l.lower := by
  unfold lead? at h
  grind

theorem follow_append {n : Nat} {lower upper : UInt8} {bits : Nat} {rest : List UInt8} {stop : UInt8}
    (hlower : 0x80 ≤ lower) (hstop : stop < 0x80) (others : List UInt8) :
    follow n lower upper bits (rest ++ stop :: others) = follow n lower upper bits rest := by
  induction n generalizing lower upper bits rest with
  | zero => rfl
  | succ n ih =>
    cases rest with
    | nil =>
      have hout : ¬ (lower ≤ stop ∧ stop ≤ upper) := by
        rintro ⟨hle, _⟩
        exact absurd (UInt8.lt_of_lt_of_le hstop (UInt8.le_trans hlower hle)) (UInt8.lt_irrefl _)
      simp [follow, hout]
    | cons b rest =>
      have hrest := @ih 0x80 0xBF (bits * 64 + (b.toNat - 0x80)) rest (UInt8.le_refl _)
      simp only [List.cons_append, follow, hrest]

theorem follow_taken (n : Nat) (lower upper : UInt8) (bits : Nat) (rest : List UInt8) :
    (follow n lower upper bits rest).2 ≤ rest.length := by
  induction n generalizing lower upper bits rest with
  | zero => exact Nat.zero_le _
  | succ n ih =>
    cases rest with
    | nil => exact Nat.zero_le _
    | cons b rest =>
      unfold follow
      split
      · exact Nat.succ_le_succ (ih 0x80 0xBF _ rest)
      · exact Nat.zero_le _

theorem front_append {b stop : UInt8} {rest : List UInt8} (hstop : stop < 0x80) (others : List UInt8) :
    front b (rest ++ stop :: others) = front b rest := by
  unfold front
  split
  · rfl
  · cases hlead : lead? b with
    | none => rfl
    | some l => simp only [follow_append (lead?_lower hlead) hstop]

theorem front_taken (b : UInt8) (rest : List UInt8) : (front b rest).2 ≤ rest.length := by
  unfold front
  split
  · exact Nat.zero_le _
  · cases lead? b with
    | none => exact Nat.zero_le _
    | some l => exact follow_taken _ _ _ _ _

/-! ## 2. A whole sequence before a feed -/

theorem scan_cons (b : UInt8) (rest : List UInt8) :
    scan (b :: rest) = (front b rest).1 :: scan (rest.drop (front b rest).2) := by
  rw [scan]

/-- **A byte below `0x80` stands for itself**, whatever comes before it. -/
theorem scan_append {stop : UInt8} (hstop : stop < 0x80) (bytes others : List UInt8) :
    scan (bytes ++ stop :: others) = scan bytes ++ some (Char.ofNat stop.toNat) :: scan others := by
  induction bytes using scan.induct with
  | case1 =>
    rw [List.nil_append, scan_cons]
    simp [front, hstop, scan]
  | case2 b rest ih =>
    -- the front is read as before, and takes nothing of what comes after the stop
    have hdrop : (rest ++ stop :: others).drop (front b rest).2
        = rest.drop (front b rest).2 ++ stop :: others :=
      List.drop_append_of_le_length (front_taken b rest)
    rw [List.cons_append, scan_cons, front_append hstop, hdrop, ih, scan_cons b rest]
    rfl

theorem decodeLossy_append {stop : UInt8} (hstop : stop < 0x80) (bytes others : List UInt8) :
    decodeLossy (bytes ++ stop :: others)
      = decodeLossy bytes ++ Char.ofNat stop.toNat :: decodeLossy others := by
  unfold decodeLossy
  rw [scan_append hstop, List.map_append]
  rfl

/-! ## 3. Nothing else is a feed -/

theorem le_of_follow {n : Nat} {lower upper : UInt8} {bits point : Nat} {rest : List UInt8}
    (h : (follow n lower upper bits rest).1 = some point) : bits ≤ point := by
  induction n generalizing lower upper bits rest with
  | zero =>
    cases h
    exact Nat.le_refl _
  | succ n ih =>
    cases rest with
    | nil => cases h
    | cons b rest =>
      unfold follow at h
      split at h
      · have hle : bits * 64 + (b.toNat - 0x80) ≤ point := ih h
        omega
      · cases h

/-- The bound on the second byte counts too; it is what keeps overlong forms away. -/
theorem le_of_follow_succ {n : Nat} {lower upper : UInt8} {bits point : Nat} {rest : List UInt8}
    (h : (follow (n + 1) lower upper bits rest).1 = some point) :
    bits * 64 + (lower.toNat - 0x80) ≤ point := by
  cases rest with
  | nil => cases h
  | cons b rest =>
    unfold follow at h
    split at h
    · next hfits =>
      have hlower : lower.toNat ≤ b.toNat := UInt8.le_iff_toNat_le.mp hfits.1
      have hle : bits * 64 + (b.toNat - 0x80) ≤ point := le_of_follow h
      omega
    · cases h

theorem le_of_follow_succ_succ {n : Nat} {lower upper : UInt8} {bits point : Nat} {rest : List UInt8}
    (h : (follow (n + 2) lower upper bits rest).1 = some point) :
    (bits * 64 + (lower.toNat - 0x80)) * 64 ≤ point := by
  cases rest with
  | nil => cases h
  | cons b rest =>
    unfold follow at h
    split at h
    · next hfits =>
      have hlower : lower.toNat ≤ b.toNat := UInt8.le_iff_toNat_le.mp hfits.1
      have hle : (bits * 64 + (b.toNat - 0x80)) * 64 + _ ≤ point := le_of_follow_succ h
      omega
    · cases h

/-- No first byte leads to a code point below `0x80`. -/
theorem lead?_least {b : UInt8} {l : Lead} (h : lead? b = some l) :
    (l.following = 1 ∧ 0x80 ≤ l.bits * 64 + (l.lower.toNat - 0x80))
      ∨ ∃ n, l.following = n + 2 ∧ 0x80 ≤ (l.bits * 64 + (l.lower.toNat - 0x80)) * 64 := by
  simp only [lead?, UInt8.lt_iff_toNat_lt, ← UInt8.toNat_inj] at h
  split at h
  · cases h
  next hC2 =>
  split at h
  · next hE0 =>
    cases h
    refine .inl ⟨rfl, ?_⟩
    simp at hC2 hE0 ⊢
    omega
  next hE0 =>
  refine .inr ?_
  split at h
  · cases h
    exact ⟨0, rfl, by decide⟩
  next hneE0 =>
  split at h
  · cases h
    exact ⟨0, rfl, by decide⟩
  split at h
  · cases h
    refine ⟨0, rfl, ?_⟩
    simp at hE0 hneE0 ⊢
    omega
  next hF0 =>
  split at h
  · cases h
    exact ⟨1, rfl, by decide⟩
  next hneF0 =>
  split at h
  · cases h
    refine ⟨1, rfl, ?_⟩
    simp at hF0 hneF0 ⊢
    omega
  split at h
  · cases h
    exact ⟨1, rfl, by decide⟩
  · cases h

theorem toNat_of_ofNat_eq_feed {n : Nat} (h : Char.ofNat n = '\n') : n = 10 := by
  by_cases hvalid : n.isValidChar
  · have hself : Char.ofNat n = Char.ofNatAux n hvalid := dif_pos hvalid
    exact congrArg Char.toNat (hself.symm.trans h)
  · have hzero : Char.ofNat n = '\x00' := dif_neg hvalid
    cases hzero.symm.trans h

/-- **Only the byte `0x0A` is read as a feed.** -/
theorem front_ne_feed {b : UInt8} {rest : List UInt8} (hb : b ≠ 0x0A) : (front b rest).1 ≠ some '\n' := by
  intro h
  unfold front at h
  split at h
  · have hb10 := toNat_of_ofNat_eq_feed (Option.some.inj h)
    exact hb (UInt8.toNat_inj.mp hb10)
  · cases hlead : lead? b with
    | none =>
      rw [hlead] at h
      cases h
    | some l =>
      rw [hlead] at h
      obtain ⟨point, hpoint, hfeed⟩ := Option.map_eq_some_iff.mp h
      have hpoint10 := toNat_of_ofNat_eq_feed hfeed
      rcases lead?_least hlead with ⟨hfollowing, hleast⟩ | ⟨n, hfollowing, hleast⟩
      · rw [hfollowing] at hpoint
        have hle := le_of_follow_succ hpoint
        omega
      · rw [hfollowing] at hpoint
        have hle := le_of_follow_succ_succ hpoint
        omega

theorem feed_not_mem_scan {bytes : List UInt8} (hfree : 0x0A ∉ bytes) : some '\n' ∉ scan bytes := by
  induction bytes using scan.induct with
  | case1 => simp [scan]
  | case2 b rest ih =>
    rw [List.mem_cons, not_or] at hfree
    rw [scan_cons, List.mem_cons, not_or]
    constructor
    · exact Ne.symm (front_ne_feed (Ne.symm hfree.1))
    · exact ih fun hmem => hfree.2 (List.mem_of_mem_drop hmem)

theorem feed_not_mem_decodeLossy {bytes : List UInt8} (hfree : 0x0A ∉ bytes) :
    '\n' ∉ decodeLossy bytes := by
  intro hmem
  obtain ⟨c, hc, hfeed⟩ := List.mem_map.mp hmem
  cases c with
  | none => cases hfeed
  | some c =>
    obtain rfl : c = '\n' := hfeed
    exact feed_not_mem_scan hfree hc

/-! ## 4. Line by line -/

/-- **The pieces of a decoded text are the decoded pieces of its bytes.** -/
theorem pieces_decodeLossy (bytes : List UInt8) :
    pieces '\n' (decodeLossy bytes) = (pieces 0x0A bytes).map decodeLossy := by
  induction hlength : bytes.length using Nat.strongRecOn generalizing bytes with
  | _ n ih =>
    by_cases hmem : 0x0A ∈ bytes
    · obtain ⟨line, rest, rfl, hfree⟩ := List.eq_append_cons_of_mem hmem
      have hrest := ih rest.length (by simp at hlength; omega) rest rfl
      have hline := pieces_of_not_mem (feed_not_mem_decodeLossy hfree)
      rw [decodeLossy_append (by decide), show Char.ofNat (0x0A : UInt8).toNat = '\n' from rfl,
        pieces_append_sep, pieces_append_sep, hline, pieces_of_not_mem hfree, hrest]
      rfl
    · rw [pieces_of_not_mem hmem, pieces_of_not_mem (feed_not_mem_decodeLossy hmem)]
      rfl

end SyntaxWatch.Text.Utf8
