import ZkPayroll.Framework.Guards
import ZkPayroll.Framework.Wire

/-!
# Readers and writers of one format

A reader takes what it reads from the front of the bytes that its state still
has (`rest`). `Token` says of a reader of one field which bytes it takes and
which value it gives; `Codec` says of a reader and a writer of a format what
reading and writing have to do with each other.
-/

namespace ZkPayroll.Framework

variable {σ ε α β γ τ : Type}

/-! ## Reading back -/

/-- The byte strings are the same, or differ before the shorter one ends. -/
def PrefixFree (w u : List UInt8) : Prop := ∀ x y, w ++ x = u ++ y → w = u

variable {w u : List UInt8}

theorem PrefixFree.of_length (h : w.length = u.length) : PrefixFree w u :=
  fun _ _ he => (List.append_inj he h).1

variable {w₁ u₁ w₂ u₂ : List UInt8}

theorem PrefixFree.append (h₁ : PrefixFree w₁ u₁) (h₂ : PrefixFree w₂ u₂) :
    PrefixFree (w₁ ++ w₂) (u₁ ++ u₂) := by
  intro x y h
  rw [List.append_assoc, List.append_assoc] at h
  obtain rfl := h₁ _ _ h
  rw [h₂ _ _ (List.append_cancel_left h)]

theorem PrefixFree.append_eq_iff (h₁ : PrefixFree w₁ u₁) :
    w₁ ++ w₂ = u₁ ++ u₂ ↔ w₁ = u₁ ∧ w₂ = u₂ := by
  constructor
  · intro h
    obtain rfl := h₁ _ _ h
    exact ⟨rfl, List.append_cancel_left h⟩
  · intro h
    rw [h.1, h.2]

/-- A frame whose length wraps around is not taken for a shorter one. -/
theorem PrefixFree.frame {w t : List UInt8} (ht : t.length < 2 ^ 32)
    (hw : ∀ y, w = t ++ y → w.length < t.length + 2 ^ 32) : PrefixFree (frame w) (frame t) := by
  intro x y h
  rw [Framework.frame, Framework.frame, List.append_assoc, List.append_assoc] at h
  obtain ⟨hn, hb⟩ := List.append_inj h (by simp)
  have hl : w.length % 2 ^ 32 = t.length := by
    have := congrArg ofLE hn
    rwa [ofLE_toLE, ofLE_toLE, Nat.mod_eq_of_lt (show t.length < 256 ^ 4 from ht)] at this
  have hlen : w.length = t.length := by
    by_contra hne
    have hmod := Nat.mod_add_div w.length (2 ^ 32)
    rcases List.append_eq_append_iff.mp hb with ⟨a, rfl, -⟩ | ⟨a, hwa, -⟩
    · rw [List.length_append] at hl hne
      omega
    · have := hw a hwa
      omega
  rw [(List.append_inj hb hlen).1]

/-- `w` is what is written for a value that was read from `used`, and `fields`
are the raw fields there. -/
structure ReadBack (nanBits : UInt64 → UInt64) (w used : List UInt8) (fields : List RawField) (fit : Prop) :
    Prop where
  prefixFree : PrefixFree w used
  eq_iff : w = used ↔ ∀ f ∈ fields, f.Canonical nanBits
  fits : w = used → fit

variable {nanBits : UInt64 → UInt64}

theorem ReadBack.nil : ReadBack nanBits [] [] [] True where
  prefixFree := fun _ _ _ => rfl
  eq_iff := by simp
  fits := fun _ => trivial

theorem ReadBack.append {f₁ f₂ : List RawField} {p₁ p₂ : Prop}
    (h₁ : ReadBack nanBits w₁ u₁ f₁ p₁) (h₂ : ReadBack nanBits w₂ u₂ f₂ p₂) :
    ReadBack nanBits (w₁ ++ w₂) (u₁ ++ u₂) (f₁ ++ f₂) (p₁ ∧ p₂) where
  prefixFree := h₁.prefixFree.append h₂.prefixFree
  eq_iff := by
    rw [h₁.prefixFree.append_eq_iff, h₁.eq_iff, h₂.eq_iff, List.forall_mem_append]
  fits := fun h => by
    obtain ⟨he₁, he₂⟩ := h₁.prefixFree.append_eq_iff.mp h
    exact ⟨h₁.fits he₁, h₂.fits he₂⟩

theorem ReadBack.imp {fs : List RawField} {p q : Prop} (h : ReadBack nanBits w u fs p)
    (hpq : p → q) : ReadBack nanBits w u fs q where
  prefixFree := h.prefixFree
  eq_iff := h.eq_iff
  fits := fun he => hpq (h.fits he)

/-- The bytes of a field that is read by itself. -/
theorem ReadBack.single {f : RawField} {p : Prop} (hf : PrefixFree w u)
    (h : w = u ↔ f.Canonical nanBits) (hp : w = u → p) : ReadBack nanBits w u [f] p where
  prefixFree := hf
  eq_iff := by
    rw [h]
    simp
  fits := hp

/-! ## Fields -/

variable {t : List UInt8}

/-- A text that is read from a frame. -/
theorem ReadBack.text (ht : t.length < 2 ^ 32) :
    ReadBack nanBits (frame (writeText (readText t))) (frame t) [.text t] (TextFits (readText t)) := by
  refine .single (.frame ht fun y hy => ?_) ?_ fun h => ?_
  · rw [writeText_readText] at hy ⊢
    have := length_encodeUtf8_decodeText_le hy
    omega
  · rw [frame_injective.eq_iff, writeText_readText]
    exact encodeUtf8_decodeText_iff
  · have hw : writeText (readText t) = t := frame_injective h
    have hr : readText (writeText (readText t)) = readText t := by rw [hw]
    obtain ⟨hwf, hb⟩ := readText_writeText_iff.mp hr
    exact ⟨hwf, hb, by rwa [hw]⟩

theorem ReadBack.magnitude (ht : t.length < 2 ^ 32) :
    ReadBack nanBits (frame (Framework.magnitude (ofBE t))) (frame t) [.magnitude t] (MagnitudeFits (ofBE t)) := by
  have hle := length_magnitude_ofBE_le t
  refine .single (.frame ht fun _ _ => by omega) ?_ fun _ => ?_
  · rw [frame_injective.eq_iff]
    exact magnitude_ofBE_iff t
  · show (Framework.magnitude (ofBE t)).length < 2 ^ 32
    omega

theorem ReadBack.flag (b : UInt8) : ReadBack nanBits [if b != 0 then 1 else 0] [b] [.flag b] True := by
  refine .single (.of_length rfl) ?_ fun _ => trivial
  rw [List.singleton_inj]
  show _ ↔ b = 0 ∨ b = 1
  by_cases h : b = 0
  · rw [h]
    exact iff_of_true rfl (.inl rfl)
  · rw [if_pos (bne_iff_ne.mpr h)]
    exact ⟨fun h1 => .inr h1.symm, fun h1 => (h1.resolve_left h).symm⟩

theorem readDouble_toLE (x : UInt64) : readDouble (toLE 8 x.toNat) = x := by
  have hx : x.toNat < 256 ^ 8 := x.toNat_lt
  rw [readDouble, ofLE_toLE, Nat.mod_eq_of_lt hx, UInt64.ofNat_toNat]

theorem toLE_readDouble (ht : t.length = 8) : toLE 8 (readDouble t).toNat = t := by
  have hlt : ofLE t < 2 ^ 64 := by
    have := ofLE_lt t
    rwa [ht] at this
  rw [readDouble, UInt64.toNat_ofNat_of_lt' hlt, ← ht, toLE_ofLE]

theorem ReadBack.double (ht : t.length = 8) :
    ReadBack nanBits (writeDouble nanBits (readDouble t)) t [.double t] (DoubleFits nanBits (readDouble t)) := by
  have hiff : writeDouble nanBits (readDouble t) = t ↔ DoubleFits nanBits (readDouble t) := by
    unfold writeDouble doubleBits DoubleFits
    split
    · rename_i h
      constructor
      · intro hw _
        rw [← readDouble_toLE (nanBits _), hw]
      · intro hw
        rw [hw h, toLE_readDouble ht]
    · rename_i h
      exact iff_of_true (toLE_readDouble ht) fun hn => absurd hn h
  exact .single (.of_length (by rw [writeDouble, length_toLE, ht])) hiff hiff.mp

/-! ## Readers of one field -/

variable {rest : σ → List UInt8}

/-- The reader takes the bytes of one of the tokens and gives its value. -/
structure Token (rest : σ → List UInt8) (reader : StateT σ (Except ε) α) (bytes : τ → List UInt8)
    (value : τ → α) (valid : τ → Prop) : Prop where
  reads : ∀ {s s' : σ} {v : α}, reader s = .ok (v, s') →
    ∃ t, valid t ∧ rest s = bytes t ++ rest s' ∧ v = value t
  accepts : ∀ {s : σ} {t : τ} {tail : List UInt8}, valid t → rest s = bytes t ++ tail →
    ∃ s', reader s = .ok (value t, s') ∧ rest s' = tail

/-- A reader of the numbers that counts and lengths are. -/
abbrev CountToken (rest : σ → List UInt8) (reader : StateT σ (Except ε) Nat) : Prop :=
  Token rest reader (toLE 4) id (· < 2 ^ 32)

/-- A reader of flags. -/
abbrev FlagToken (rest : σ → List UInt8) (reader : StateT σ (Except ε) Bool) : Prop :=
  Token rest reader (fun b : UInt8 => [b]) (fun b => b != 0) fun _ => True

/-- A reader of what stands after its length. -/
abbrev FrameToken (rest : σ → List UInt8) (reader : StateT σ (Except ε) α) (value : List UInt8 → α) : Prop :=
  Token rest reader frame value (·.length < 2 ^ 32)

/-! ## Codecs -/

/-- What the reader and the writer of a format have to do with each other.
What it reads is cut off as the format says, is written back as it was just
if its fields are canonical, and fits the format then. What fits is read back
from the bytes that are written for it. -/
structure Codec (rest : σ → List UInt8) (nanBits : UInt64 → UInt64) (format : Format)
    (reader : StateT σ (Except ε) α) (write : α → List UInt8) (Fits : α → Prop) : Prop where
  reads : ∀ {s s' : σ} {v : α}, reader s = .ok (v, s') →
    ∃ used fields, rest s = used ++ rest s' ∧ format.cut (rest s) = some (fields, rest s') ∧
      ReadBack nanBits (write v) used fields (Fits v)
  accepts : ∀ {s : σ} {v : α} {tail : List UInt8}, Fits v → rest s = write v ++ tail →
    ∃ s', reader s = .ok (v, s') ∧ rest s' = tail

/-- A field is a format of its own. -/
theorem Codec.ofToken {format : Format} {reader : StateT σ (Except ε) α} {write : α → List UInt8}
    {Fits : α → Prop} {bytes : τ → List UInt8} {value : τ → α} {valid : τ → Prop} (field : τ → RawField)
    (h : Token rest reader bytes value valid)
    (hcut : ∀ t r, valid t → format.cut (bytes t ++ r) = some ([field t], r))
    (hback : ∀ t, valid t → ReadBack nanBits (write (value t)) (bytes t) [field t] (Fits (value t)))
    (hfit : ∀ v, Fits v → ∃ t, valid t ∧ bytes t = write v ∧ value t = v) :
    Codec rest nanBits format reader write Fits where
  reads := by
    intro s s' v hr
    obtain ⟨t, ht, hrest, rfl⟩ := h.reads hr
    exact ⟨bytes t, [field t], hrest, by rw [hrest]; exact hcut t _ ht, hback t ht⟩
  accepts := by
    intro s v tail hv hrest
    obtain ⟨t, ht, hb, rfl⟩ := hfit v hv
    exact h.accepts ht (by rw [hrest, hb])

theorem Codec.text {reader : StateT σ (Except ε) (List UInt16)} (h : FrameToken rest reader readText) :
    Codec rest nanBits .text reader (fun s => frame (writeText s)) TextFits := by
  refine .ofToken .text h (fun t r ht => ?_) (fun t ht => .text ht) fun s hs => ?_
  · rw [Format.cut, cutFrame_append ht]
    rfl
  · exact ⟨writeText s, hs.length_lt, rfl, readText_writeText_iff.mpr ⟨hs.wellFormed, hs.no_bom⟩⟩

/-- A reader of magnitudes gives integers, of which it never gives a negative
one. -/
theorem Codec.magnitude {reader : StateT σ (Except ε) Int} (h : FrameToken rest reader fun t => (ofBE t : Int)) :
    Codec rest nanBits .magnitude reader (fun n => frame (Framework.magnitude n.toNat))
      fun n => 0 ≤ n ∧ MagnitudeFits n.toNat := by
  refine .ofToken .magnitude h (fun t r ht => ?_) (fun t ht => ?_) fun n hn => ?_
  · rw [Format.cut, cutFrame_append ht]
    rfl
  · exact (ReadBack.magnitude ht).imp fun hfit => ⟨Int.natCast_nonneg _, hfit⟩
  · exact ⟨Framework.magnitude n.toNat, hn.2, rfl, by rw [ofBE_magnitude, Int.toNat_of_nonneg hn.1]⟩

theorem Codec.flag {reader : StateT σ (Except ε) Bool} (h : FlagToken rest reader) :
    Codec rest nanBits .flag reader (fun v => [if v then 1 else 0]) fun _ => True := by
  refine .ofToken .flag h (fun b r _ => rfl) (fun b _ => .flag b) fun v _ => ?_
  cases v with
  | false => exact ⟨0, trivial, rfl, rfl⟩
  | true => exact ⟨1, trivial, rfl, rfl⟩

theorem Codec.double {reader : StateT σ (Except ε) UInt64}
    (h : Token rest reader id readDouble (·.length = 8)) :
    Codec rest nanBits .double reader (writeDouble nanBits) (DoubleFits nanBits) := by
  refine .ofToken .double h (fun t r ht => ?_) (fun t ht => .double ht) fun x hx => ?_
  · show Option.map _ (cutBytes 8 (t ++ r)) = _
    rw [cutBytes_append ht]
    rfl
  · have hbits : doubleBits nanBits x = x := by
      unfold doubleBits
      split
      · rename_i hn
        exact hx hn
      · rfl
    refine ⟨writeDouble nanBits x, length_toLE 8 _, rfl, ?_⟩
    rw [writeDouble, hbits, readDouble_toLE]

/-! ## Rules -/

theorem reader_bind_eq_ok {x : StateT σ (Except ε) α} {f : α → StateT σ (Except ε) β} {s : σ} {r : β × σ} :
    (x >>= f) s = .ok r ↔ ∃ a s', x s = .ok (a, s') ∧ f a s' = .ok r := by
  show (x s >>= fun p => f p.1 p.2) = _ ↔ _
  rw [except_bind_eq_ok, Prod.exists]

theorem reader_pure_eq_ok {a b : α} {s s' : σ} :
    (pure a : StateT σ (Except ε) α) s = .ok (b, s') ↔ a = b ∧ s = s' := by
  show (Except.ok (a, s) : Except ε (α × σ)) = _ ↔ _
  rw [Except.ok.injEq, Prod.mk.injEq]

theorem reader_lift_eq_ok {x : Except ε α} {s s' : σ} {a : α} :
    (liftM x : StateT σ (Except ε) α) s = .ok (a, s') ↔ x = .ok a ∧ s = s' := by
  cases x with
  | error e => simp [liftM, monadLift, MonadLift.monadLift, StateT.lift, bind, Except.bind]
  | ok b => simp [liftM, monadLift, MonadLift.monadLift, StateT.lift, bind, Except.bind, pure, Except.pure]

theorem reader_lift_bind_eq_ok {x : Except ε α} {f : α → StateT σ (Except ε) β} {s : σ} {r : β × σ} :
    ((liftM x : StateT σ (Except ε) α) >>= f) s = .ok r ↔ ∃ a, x = .ok a ∧ f a s = .ok r := by
  simp only [reader_bind_eq_ok, reader_lift_eq_ok]
  constructor
  · intro h
    obtain ⟨a, _, ⟨ha, rfl⟩, hf⟩ := h
    exact ⟨a, ha, hf⟩
  · intro h
    obtain ⟨a, ha, hf⟩ := h
    exact ⟨a, s, ⟨ha, rfl⟩, hf⟩

/-- One part after the other. -/
def readPair (first : StateT σ (Except ε) α) (second : StateT σ (Except ε) β) : StateT σ (Except ε) (α × β) := do
  let a ← first
  let b ← second
  pure (a, b)

/-- A part after a flag. -/
def readOptional (flag : StateT σ (Except ε) Bool) (part : StateT σ (Except ε) α) :
    StateT σ (Except ε) (Option α) := do
  if ← flag then
    let a ← part
    pure (some a)
  else pure none

/-- `n` parts. -/
def readRepeat (part : StateT σ (Except ε) α) : Nat → StateT σ (Except ε) (List α)
  | 0 => pure []
  | n + 1 => do
    let a ← part
    let as ← readRepeat part n
    pure (a :: as)

/-- Parts after their count, which `check` may refuse. -/
def readMany (count : StateT σ (Except ε) Nat) (check : Nat → Except ε Unit) (part : StateT σ (Except ε) α) :
    StateT σ (Except ε) (List α) := do
  let n ← count
  check n
  readRepeat part n

section Rules

variable {first : StateT σ (Except ε) α} {second : StateT σ (Except ε) β} {f g : Format}
  {write : α → List UInt8} {write' : β → List UInt8} {Fits : α → Prop} {Fits' : β → Prop}

theorem Codec.pair (hf : Codec rest nanBits f first write Fits) (hs : Codec rest nanBits g second write' Fits') :
    Codec rest nanBits (f.seq g) (readPair first second) (fun p => write p.1 ++ write' p.2)
      fun p => Fits p.1 ∧ Fits' p.2 where
  reads := by
    intro s s' v hr
    simp only [readPair, reader_bind_eq_ok, reader_pure_eq_ok] at hr
    obtain ⟨a, s₁, ha, b, s₂, hb, rfl, rfl⟩ := hr
    obtain ⟨u₁, f₁, hu₁, hc₁, h₁⟩ := hf.reads ha
    obtain ⟨u₂, f₂, hu₂, hc₂, h₂⟩ := hs.reads hb
    refine ⟨u₁ ++ u₂, f₁ ++ f₂, by rw [hu₁, hu₂, List.append_assoc], ?_, h₁.append h₂⟩
    show (f.cut (rest s)).bind _ = _
    rw [hc₁]
    show (g.cut (rest s₁)).bind _ = _
    rw [hc₂]
    rfl
  accepts := by
    intro s v tail hv hrest
    rw [List.append_assoc] at hrest
    obtain ⟨s₁, ha, hs₁⟩ := hf.accepts hv.1 hrest
    obtain ⟨s₂, hb, hs₂⟩ := hs.accepts hv.2 hs₁
    refine ⟨s₂, ?_, hs₂⟩
    simp only [readPair, reader_bind_eq_ok, reader_pure_eq_ok]
    exact ⟨_, _, ha, _, _, hb, rfl, rfl⟩

/-- A record is read as its parts, and written by them. -/
theorem Codec.map (toRecord : α → γ) (parts : γ → α) (h : Codec rest nanBits f first write Fits)
    (hparts : ∀ a, parts (toRecord a) = a) :
    Codec rest nanBits f (toRecord <$> first) (fun r => write (parts r))
      fun r => Fits (parts r) ∧ toRecord (parts r) = r where
  reads := by
    intro s s' v hr
    rw [map_eq_pure_bind, reader_bind_eq_ok] at hr
    obtain ⟨a, s₁, ha, hp⟩ := hr
    obtain ⟨rfl, rfl⟩ := reader_pure_eq_ok.mp hp
    obtain ⟨u, fs, hu, hc, hb⟩ := h.reads ha
    rw [hparts a]
    exact ⟨u, fs, hu, hc, hb.imp fun hfit => ⟨hfit, rfl⟩⟩
  accepts := by
    intro s v tail hv hrest
    obtain ⟨s₁, ha, hs₁⟩ := h.accepts hv.1 hrest
    refine ⟨s₁, ?_, hs₁⟩
    rw [map_eq_pure_bind, reader_bind_eq_ok]
    exact ⟨_, _, ha, reader_pure_eq_ok.mpr ⟨hv.2, rfl⟩⟩

/-- What fits may be said in other words. -/
theorem Codec.congr {Fits' : α → Prop} (h : Codec rest nanBits f first write Fits)
    (hfits : ∀ a, Fits a ↔ Fits' a) : Codec rest nanBits f first write Fits' where
  reads := by
    intro s s' v hr
    obtain ⟨u, fs, hu, hc, hb⟩ := h.reads hr
    exact ⟨u, fs, hu, hc, hb.imp (hfits v).mp⟩
  accepts := fun hv hrest => h.accepts ((hfits _).mpr hv) hrest

/-- What is written for a part that may be missing. -/
def writeOptional (write : α → List UInt8) : Option α → List UInt8
  | none => [0]
  | some a => 1 :: write a

theorem Codec.optional {flag : StateT σ (Except ε) Bool} (hflag : FlagToken rest flag)
    (h : Codec rest nanBits f first write Fits) :
    Codec rest nanBits (.optional f) (readOptional flag first) (writeOptional write)
      fun v => ∀ a ∈ v, Fits a where
  reads := by
    intro s s' v hr
    rw [readOptional, reader_bind_eq_ok] at hr
    obtain ⟨on, s₁, hon, hr⟩ := hr
    obtain ⟨b, -, hb, rfl⟩ := hflag.reads hon
    have hcut : (Format.optional f).cut (rest s) = if b = 0 then some ([.flag b], rest s₁)
        else (f.cut (rest s₁)).map fun p => (.flag b :: p.1, p.2) := by
      rw [hb]
      rfl
    by_cases h0 : b = 0
    · rw [if_neg (by simp [h0])] at hr
      obtain ⟨rfl, rfl⟩ := reader_pure_eq_ok.mp hr
      refine ⟨[b], [.flag b], hb, by rw [hcut, if_pos h0], ?_⟩
      have hf : ReadBack nanBits _ [b] [.flag b] True := .flag b
      rw [if_neg (by simp [h0])] at hf
      exact hf.imp fun _ a ha => absurd ha (by simp)
    · rw [if_pos (bne_iff_ne.mpr h0), reader_bind_eq_ok] at hr
      obtain ⟨a, s₂, ha, hp⟩ := hr
      obtain ⟨rfl, rfl⟩ := reader_pure_eq_ok.mp hp
      obtain ⟨u, fs, hu, hc, hback⟩ := h.reads ha
      refine ⟨[b] ++ u, [.flag b] ++ fs, by rw [hb, hu, List.append_assoc], ?_, ?_⟩
      · rw [hcut, if_neg h0, hc]
        rfl
      · have hf : ReadBack nanBits _ [b] [.flag b] True := .flag b
        rw [if_pos (bne_iff_ne.mpr h0)] at hf
        exact (hf.append hback).imp fun hfit a' ha' => by
          obtain rfl := Option.some.inj ha'
          exact hfit.2
  accepts := by
    intro s v tail hv hrest
    cases v with
    | none =>
      obtain ⟨s₁, hon, hs₁⟩ := hflag.accepts (t := 0) trivial hrest
      refine ⟨s₁, ?_, hs₁⟩
      rw [readOptional, reader_bind_eq_ok]
      exact ⟨_, _, hon, rfl⟩
    | some a =>
      obtain ⟨s₁, hon, hs₁⟩ := hflag.accepts (t := 1) trivial hrest
      obtain ⟨s₂, ha, hs₂⟩ := h.accepts (hv a rfl) hs₁
      refine ⟨s₂, ?_, hs₂⟩
      rw [readOptional, reader_bind_eq_ok]
      refine ⟨_, _, hon, ?_⟩
      rw [if_pos (by decide), reader_bind_eq_ok]
      exact ⟨_, _, ha, rfl⟩

/-- The parts of a list that is read, one after the other. -/
theorem readRepeat_reads (h : Codec rest nanBits f first write Fits) : ∀ {n : Nat} {s s' : σ} {v : List α},
    readRepeat first n s = .ok (v, s') → v.length = n ∧
      ∃ used fields, rest s = used ++ rest s' ∧ cutRepeat f.cut n (rest s) = some (fields, rest s') ∧
        ReadBack nanBits (v.flatMap write) used fields (∀ a ∈ v, Fits a)
  | 0, s, s', v, hr => by
    obtain ⟨rfl, rfl⟩ := reader_pure_eq_ok.mp hr
    exact ⟨rfl, [], [], rfl, rfl, ReadBack.nil.imp fun _ a ha => absurd ha List.not_mem_nil⟩
  | n + 1, s, s', v, hr => by
    simp only [readRepeat, reader_bind_eq_ok, reader_pure_eq_ok] at hr
    obtain ⟨a, s₁, ha, as, s₂, has, rfl, rfl⟩ := hr
    obtain ⟨u₁, f₁, hu₁, hc₁, h₁⟩ := h.reads ha
    obtain ⟨hlen, u₂, f₂, hu₂, hc₂, h₂⟩ := readRepeat_reads h has
    refine ⟨by rw [List.length_cons, hlen], u₁ ++ u₂, f₁ ++ f₂, by rw [hu₁, hu₂, List.append_assoc], ?_, ?_⟩
    · show (f.cut (rest s)).bind _ = _
      rw [hc₁]
      show (cutRepeat f.cut n (rest s₁)).bind _ = _
      rw [hc₂]
      rfl
    · exact (h₁.append h₂).imp fun hfit => List.forall_mem_cons.mpr hfit

theorem readRepeat_accepts (h : Codec rest nanBits f first write Fits) : ∀ {v : List α} {s : σ}
    {tail : List UInt8}, (∀ a ∈ v, Fits a) → rest s = v.flatMap write ++ tail →
      ∃ s', readRepeat first v.length s = .ok (v, s') ∧ rest s' = tail
  | [], s, tail, _, hrest => ⟨s, rfl, hrest⟩
  | a :: v, s, tail, hv, hrest => by
    obtain ⟨ha, hv⟩ := List.forall_mem_cons.mp hv
    rw [List.flatMap_cons, List.append_assoc] at hrest
    obtain ⟨s₁, h₁, hs₁⟩ := h.accepts ha hrest
    obtain ⟨s₂, h₂, hs₂⟩ := readRepeat_accepts h hv hs₁
    refine ⟨s₂, ?_, hs₂⟩
    simp only [List.length_cons, readRepeat, reader_bind_eq_ok, reader_pure_eq_ok]
    exact ⟨_, _, h₁, _, _, h₂, rfl, rfl⟩

/-- What is written for a list. -/
def writeMany (write : α → List UInt8) (v : List α) : List UInt8 := toLE 4 v.length ++ v.flatMap write

theorem Codec.many {count : StateT σ (Except ε) Nat} (check : Nat → Except ε Unit)
    (hcount : CountToken rest count) (h : Codec rest nanBits f first write Fits) :
    Codec rest nanBits (.many f) (readMany count check first) (writeMany write)
      fun v => (v.length < 2 ^ 32 ∧ check v.length = .ok ()) ∧ ∀ a ∈ v, Fits a where
  reads := by
    intro s s' v hr
    rw [readMany, reader_bind_eq_ok] at hr
    obtain ⟨n, s₁, hn, hr⟩ := hr
    obtain ⟨_, hlt, hb, rfl⟩ := hcount.reads hn
    obtain ⟨_, hcheck, hr⟩ := reader_lift_bind_eq_ok.mp hr
    obtain ⟨rfl, u, fs, hu, hc, hback⟩ := readRepeat_reads h hr
    refine ⟨toLE 4 v.length ++ u, fs, by rw [hb, hu, List.append_assoc], ?_, ?_⟩
    · rw [hb, Format.cut, cutBytes_append (length_toLE 4 _)]
      show cutRepeat f.cut (ofLE (toLE 4 v.length)) (rest s₁) = _
      rw [ofLE_toLE_four hlt, hc]
    · have hlen : ReadBack nanBits (toLE 4 v.length) (toLE 4 v.length) []
          (v.length < 2 ^ 32 ∧ check v.length = .ok ()) :=
        ⟨fun _ _ _ => rfl, by simp, fun _ => ⟨hlt, hcheck⟩⟩
      exact hlen.append hback
  accepts := by
    intro s v tail hv hrest
    rw [writeMany, List.append_assoc] at hrest
    obtain ⟨s₁, hn, hs₁⟩ := hcount.accepts (t := v.length) hv.1.1 hrest
    obtain ⟨s₂, h₂, hs₂⟩ := readRepeat_accepts h hv.2 hs₁
    refine ⟨s₂, ?_, hs₂⟩
    rw [readMany, reader_bind_eq_ok]
    exact ⟨_, _, hn, reader_lift_bind_eq_ok.mpr ⟨_, hv.1.2, h₂⟩⟩

end Rules

end ZkPayroll.Framework
