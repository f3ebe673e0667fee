import PageLookup.Document.Format

/-!
# The keys of a document

Whatever the format, a document that is a map holds each key once. JSON keeps
the last value of a key and YAML refuses a second one, as TOML does at every
statement that could write one.
-/

set_option autoImplicit false

namespace PageLookup.Document

def Value.KeysOnce : Value → Prop
  | .map entries => (entries.map Prod.fst).Nodup
  | _ => True

section LastOfEach

variable {α : Type}

theorem mem_keys_lastOfEach (es : List (String × α)) (k : String)
    (h : k ∈ (lastOfEach es).map Prod.fst) : k ∈ es.map Prod.fst := by
  induction es with
  | nil => exact h
  | cons e rest ih =>
    rw [lastOfEach] at h
    split at h
    · exact List.mem_cons_of_mem _ (ih h)
    · rcases List.mem_cons.mp h with rfl | h
      · exact List.mem_cons_self
      · exact List.mem_cons_of_mem _ (ih h)

theorem lastOfEach_nodup (es : List (String × α)) : ((lastOfEach es).map Prod.fst).Nodup := by
  induction es with
  | nil => exact .nil
  | cons e rest ih =>
    rw [lastOfEach]
    split
    · exact ih
    · rename_i hany
      rw [List.map_cons, List.nodup_cons]
      refine ⟨fun h => hany ?_, ih⟩
      obtain ⟨x, hx, hkey⟩ := List.mem_map.mp (mem_keys_lastOfEach rest e.1 h)
      exact List.any_eq_true.mpr ⟨x, hx, beq_iff_eq.mpr hkey⟩

end LastOfEach

namespace Json

theorem whole_keysOnce (negative : Bool) (digits : List Char) (v : Value)
    (h : whole negative digits = some v) : v.KeysOnce := by
  simp only [whole] at h
  split at h
  · obtain ⟨x, -, rfl⟩ := Option.map_eq_some_iff.mp h
    trivial
  · split at h
    · exact Option.some.inj h ▸ trivial
    · split at h <;> exact Option.some.inj h ▸ trivial

theorem fractional_keysOnce (negative : Bool) (digits fraction : List Char)
    (exponent : Option (Bool × List Char)) (v : Value)
    (h : fractional negative digits fraction exponent = some v) : v.KeysOnce := by
  simp only [fractional] at h
  split at h
  · obtain ⟨x, -, rfl⟩ := Option.map_eq_some_iff.mp h
    trivial
  · split at h
    · obtain ⟨x, -, rfl⟩ := Option.map_eq_some_iff.mp h
      trivial
    · split at h
      · exact Option.some.inj h ▸ trivial
      · cases h

theorem number_keysOnce (negative : Bool) (cs : List Char) (p : Value × List Char)
    (h : number negative cs = some p) : p.1.KeysOnce := by
  simp only [number] at h
  split at h
  · cases h
  · split at h
    · split at h
      · cases h
      · obtain ⟨e, -, h⟩ := Option.bind_eq_some_iff.mp h
        obtain ⟨v, hv, h⟩ := Option.bind_eq_some_iff.mp h
        exact Option.some.inj h ▸ fractional_keysOnce _ _ _ _ v hv
    · obtain ⟨⟨e, rest⟩, -, h⟩ := Option.bind_eq_some_iff.mp h
      cases e with
      | none =>
        obtain ⟨v, hv, h⟩ := Option.bind_eq_some_iff.mp h
        exact Option.some.inj h ▸ whole_keysOnce _ _ v hv
      | some e =>
        obtain ⟨v, hv, h⟩ := Option.bind_eq_some_iff.mp h
        exact Option.some.inj h ▸ fractional_keysOnce _ _ _ _ v hv

theorem word_keysOnce (cs : List Char) (p : Value × List Char) (h : word? cs = some p) :
    p.1.KeysOnce := by
  obtain ⟨w, hw, hp⟩ := List.exists_of_findSome?_eq_some h
  simp only [words, List.mem_cons, List.not_mem_nil, or_false] at hw
  split at hp
  · rcases hw with rfl | rfl | rfl <;> exact Option.some.inj hp ▸ trivial
  · cases hp

def Token.KeysOnce : Token → Prop
  | .scalar v => v.KeysOnce
  | _ => True

theorem first_keysOnce (cs : List Char) (p : Token × List Char) (h : Token.first? cs = some p) :
    p.1.KeysOnce := by
  cases cs with
  | nil => cases h
  | cons c rest =>
    simp only [Token.first?] at h
    split at h
    · rename_i t ht
      obtain rfl := Option.some.inj h
      unfold punctuation? at ht
      split at ht <;> cases ht <;> trivial
    · split at h
      · obtain ⟨q, -, rfl⟩ := Option.map_eq_some_iff.mp h
        trivial
      · split at h
        · obtain ⟨q, hq, rfl⟩ := Option.map_eq_some_iff.mp h
          exact number_keysOnce _ _ q hq
        · split at h
          · obtain ⟨q, hq, rfl⟩ := Option.map_eq_some_iff.mp h
            exact number_keysOnce _ _ q hq
          · obtain ⟨q, hq, rfl⟩ := Option.map_eq_some_iff.mp h
            exact word_keysOnce _ q hq

theorem allWithin_keysOnce (n : Nat) (cs : List Char) (ts : List Token)
    (h : Token.allWithin n cs = some ts) : ∀ t ∈ ts, t.KeysOnce := by
  induction n generalizing cs ts with
  | zero =>
    cases cs with
    | nil => exact Option.some.inj h ▸ nofun
    | cons c rest => cases h
  | succ n ih =>
    cases cs with
    | nil => exact Option.some.inj h ▸ nofun
    | cons c rest =>
      rw [Token.allWithin] at h
      split at h
      · exact ih rest ts h
      · obtain ⟨⟨t, rest⟩, ht, h⟩ := Option.bind_eq_some_iff.mp h
        obtain ⟨more, hmore, h⟩ := Option.bind_eq_some_iff.mp h
        obtain rfl := Option.some.inj h
        exact List.forall_mem_cons.mpr ⟨first_keysOnce _ _ ht, ih rest more hmore⟩

def Reader.KeysOnce : Reader → Prop
  | .done _ v => v.KeysOnce
  | _ => True

namespace Reader

theorem begin_keysOnce (frames : List Frame) (t : Token) (ht : t.KeysOnce) (r : Reader)
    (h : begin frames t = some r) : r.KeysOnce := by
  unfold begin at h
  split at h
  · split at h <;> cases h
    trivial
  · split at h <;> cases h
    trivial
  · exact Option.some.inj h ▸ trivial
  · exact Option.some.inj h ▸ ht
  · cases h

theorem proceed_keysOnce (v : Value) (t : Token) (frames : List Frame) (r : Reader)
    (h : proceed v t frames = some r) : r.KeysOnce := by
  unfold proceed at h
  split at h
  · cases h
  · split at h <;> cases h <;> trivial
  · split at h <;> cases h
    · trivial
    · exact lastOfEach_nodup _

theorem step_keysOnce (s : Reader) (t : Token) (ht : t.KeysOnce) (r : Reader)
    (h : step s t = some r) : r.KeysOnce := by
  unfold step at h
  split at h
  · exact begin_keysOnce _ t ht r h
  · exact Option.some.inj h ▸ trivial
  · exact begin_keysOnce _ _ ht r h
  · exact Option.some.inj h ▸ List.nodup_nil
  · exact Option.some.inj h ▸ trivial
  · cases h
  · exact Option.some.inj h ▸ trivial
  · cases h
  · exact Option.some.inj h ▸ trivial
  · cases h
  · exact proceed_keysOnce _ t _ r h

theorem run_keysOnce (ts : List Token) (hts : ∀ t ∈ ts, t.KeysOnce) (s : Reader) (hs : s.KeysOnce)
    (r : Reader) (h : ts.foldlM step s = some r) : r.KeysOnce := by
  induction ts generalizing s with
  | nil => exact Option.some.inj h ▸ hs
  | cons t ts ih =>
    obtain ⟨ht, hts⟩ := List.forall_mem_cons.mp hts
    rw [List.foldlM_cons] at h
    obtain ⟨s', hs', h⟩ := Option.bind_eq_some_iff.mp h
    exact ih hts s' (step_keysOnce s t ht s' hs') h

end Reader

theorem read_keysOnce (cs : List Char) (v : Value) (h : read cs = some v) : v.KeysOnce := by
  obtain ⟨ts, hts, h⟩ := Option.bind_eq_some_iff.mp h
  obtain ⟨r, hr, h⟩ := Option.bind_eq_some_iff.mp h
  have honce := Reader.run_keysOnce ts (allWithin_keysOnce _ cs ts hts) (.value []) trivial r hr
  split at h
  · exact Option.some.inj h ▸ honce
  · cases h

end Json

namespace Yaml

theorem toValue_keysOnce (n : Node) (v : Value) (h : n.toValue? = some v) : v.KeysOnce := by
  cases n with
  | map entries =>
    rw [Node.toValue?] at h
    obtain ⟨es, -, rfl⟩ := Option.map_eq_some_iff.mp h
    exact lastOfEach_nodup es
  | real s =>
    rw [Node.toValue?] at h
    obtain ⟨x, -, rfl⟩ := Option.map_eq_some_iff.mp h
    trivial
  | seq items =>
    rw [Node.toValue?] at h
    obtain ⟨vs, -, rfl⟩ := Option.map_eq_some_iff.mp h
    trivial
  | _ =>
    rw [Node.toValue?] at h
    exact Option.some.inj h ▸ trivial

end Yaml

namespace Toml

theorem mem_keys_setEntry (k : String) (i : Item) (es : Entries) (x : String) :
    x ∈ (setEntry k i es).map Prod.fst ↔ x = k ∨ x ∈ es.map Prod.fst := by
  induction es with
  | nil => simp [setEntry]
  | cons e rest ih =>
    rw [setEntry]
    split
    · rename_i hk
      simp [hk]
    · simp only [List.map_cons, List.mem_cons, ih]
      exact or_left_comm

def KeysOnce (es : Entries) : Prop := (es.map Prod.fst).Nodup

theorem setEntry_keysOnce (k : String) (i : Item) (es : Entries) (h : KeysOnce es) :
    KeysOnce (setEntry k i es) := by
  induction es with
  | nil => simp [KeysOnce, setEntry]
  | cons e rest ih =>
    obtain ⟨hmem, hrest⟩ := List.nodup_cons.mp h
    rw [setEntry]
    split
    · rename_i hk
      exact List.nodup_cons.mpr ⟨hk ▸ hmem, hrest⟩
    · rename_i hk
      refine List.nodup_cons.mpr ⟨fun hx => ?_, ih hrest⟩
      rcases (mem_keys_setEntry k i rest e.1).mp hx with hx | hx
      · exact hk hx
      · exact hmem hx

/-- What a statement makes of a table that holds each key once. -/
def Keeps (change : Entries → Option Entries) : Prop :=
  ∀ es es', KeysOnce es → change es = some es' → KeysOnce es'

theorem within_keeps (dotted : Bool) (change : Origin → Entries → Option Entries)
    (hchange : ∀ origin, Keeps (change origin)) (path : List String) (origin : Origin) :
    Keeps (within dotted change path origin) := by
  intro es es' hes h
  cases path with
  | nil => exact hchange origin es es' hes h
  | cons k path =>
    rw [within] at h
    split at h
    · obtain ⟨sub, -, rfl⟩ := Option.map_eq_some_iff.mp h
      exact setEntry_keysOnce k _ es hes
    · cases h
    · split at h
      · cases h
      · obtain ⟨sub, -, rfl⟩ := Option.map_eq_some_iff.mp h
        exact setEntry_keysOnce k _ es hes
    · obtain ⟨sub, -, rfl⟩ := Option.map_eq_some_iff.mp h
      exact setEntry_keysOnce k _ es hes

theorem define_keeps (k : String) (v : Value) : Keeps (define k v) := by
  intro es es' hes h
  unfold define at h
  split at h <;> cases h
  exact setEntry_keysOnce k _ es hes

theorem assign_keeps (path : List String) (k : String) (v : Value) (origin : Origin) :
    Keeps (assign path k v origin) := by
  refine within_keeps true _ (fun made es es' hes h => ?_) path origin
  split at h
  · cases h
  · exact define_keeps k v es es' hes h

theorem openTable_keeps (k : String) : Keeps (openTable k) := by
  intro es es' hes h
  unfold openTable at h
  split at h <;> cases h <;> exact setEntry_keysOnce k _ es hes

theorem openElement_keeps (k : String) : Keeps (openElement k) := by
  intro es es' hes h
  unfold openElement at h
  split at h <;> cases h <;> exact setEntry_keysOnce k _ es hes

theorem apply_keysOnce (d d' : Draft) (s : Statement) (hd : KeysOnce d.root)
    (h : d.apply s = some d') : KeysOnce d'.root := by
  cases s with
  | assign path v =>
    obtain ⟨root, hroot, h⟩ := Option.bind_eq_some_iff.mp h
    obtain rfl := Option.some.inj h
    exact within_keeps false _ (fun origin => assign_keeps _ _ v origin) _ _ d.root root hd hroot
  | table path =>
    obtain ⟨root, hroot, h⟩ := Option.bind_eq_some_iff.mp h
    obtain rfl := Option.some.inj h
    exact within_keeps false _ (fun _ => openTable_keeps _) _ _ d.root root hd hroot
  | element path =>
    obtain ⟨root, hroot, h⟩ := Option.bind_eq_some_iff.mp h
    obtain rfl := Option.some.inj h
    exact within_keeps false _ (fun _ => openElement_keeps _) _ _ d.root root hd hroot

theorem line_keysOnce (d : Draft) (cs : List Char) (p : Draft × List Char) (hd : KeysOnce d.root)
    (h : d.line? cs = some p) : KeysOnce p.1.root := by
  unfold Draft.line? at h
  split at h
  · exact Option.some.inj h ▸ hd
  · split at h
    · exact Option.some.inj h ▸ hd
    · obtain ⟨⟨s, rest⟩, -, h⟩ := Option.bind_eq_some_iff.mp h
      obtain ⟨d', hd', h⟩ := Option.bind_eq_some_iff.mp h
      exact Option.some.inj h ▸ apply_keysOnce d d' s hd hd'

theorem linesWithin_keysOnce (n : Nat) (d d' : Draft) (cs : List Char) (hd : KeysOnce d.root)
    (h : linesWithin n d cs = some d') : KeysOnce d'.root := by
  induction n generalizing d cs with
  | zero => cases h
  | succ n ih =>
    rw [linesWithin] at h
    obtain ⟨p, hp, h⟩ := Option.bind_eq_some_iff.mp h
    have honce := line_keysOnce d cs p hd hp
    dsimp only at h
    split at h
    · exact Option.some.inj h ▸ honce
    · obtain ⟨rest, -, h⟩ := Option.bind_eq_some_iff.mp h
      exact ih p.1 rest honce h

theorem keys_entryValues (es : Entries) : (entryValues es).map Prod.fst = es.map Prod.fst := by
  induction es with
  | nil => rw [entryValues]; rfl
  | cons e rest ih =>
    rw [entryValues, List.map_cons, List.map_cons, ih]

theorem read_keysOnce (cs : List Char) (v : Value) (h : read cs = some v) : v.KeysOnce := by
  obtain ⟨d, hd, h⟩ := Option.bind_eq_some_iff.mp h
  obtain rfl := Option.some.inj h
  have honce := linesWithin_keysOnce _ ⟨[], []⟩ d _ List.nodup_nil hd
  rwa [Value.KeysOnce, keys_entryValues]

end Toml

theorem Format.orMalformed_eq_ok_iff {α : Type} (format : Format) (a? : Option α) (a : α) :
    format.orMalformed a? = .ok a ↔ a? = some a := by
  cases a? <;> simp [orMalformed]

theorem Format.read_keysOnce (format : Format) (text : String) (v : Value)
    (h : format.read text = .ok v) : v.KeysOnce := by
  cases format with
  | toml => exact Toml.read_keysOnce _ v ((orMalformed_eq_ok_iff _ _ v).mp h)
  | json => exact Json.read_keysOnce _ v ((orMalformed_eq_ok_iff _ _ v).mp h)
  | yaml =>
    rw [Format.read] at h
    cases hdocs : orMalformed .yaml (Yaml.read text.toList) with
    | error e => simp [hdocs, Except.bind] at h
    | ok docs =>
      simp only [hdocs, Except.bind] at h
      unfold ofNodes at h
      split at h
      · exact Except.ok.inj h ▸ List.nodup_nil
      · exact Yaml.toValue_keysOnce _ v ((orMalformed_eq_ok_iff _ _ v).mp h)
      · cases h

end PageLookup.Document
