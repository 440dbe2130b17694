import Slopline.Net.AddressGroups

/-! The texts that denote an address, and that `from_text` takes these and `to_text` prints one of them. -/

set_option autoImplicit false

namespace Slopline.Net

open Library Library.Search

def Ipv6Host (host : List Char) (bytes : Vector UInt8 16) : Prop :=
  ∃ groups, Ipv6Text host groups ∧ bytes.toList = groups.flatMap fun group => big 2 group.toNat

/-- A text and the address it denotes; the port is 0 where there is none. -/
inductive AddressText : List Char → IpAddress → Prop where
  | ipv4 {host : List Char} {a b c d : UInt8} : Ipv4Text host [a, b, c, d] → AddressText host (.ipv4 a b c d 0)
  | ipv4Port {host text : List Char} {a b c d : UInt8} {port : UInt16} : Ipv4Text host [a, b, c, d] →
      PortText text port → AddressText (host ++ ':' :: text) (.ipv4 a b c d port)
  | ipv6 {host : List Char} {bytes : Vector UInt8 16} : Ipv6Host host bytes → AddressText host (.ipv6 bytes 0 0)
  | bracketed {host : List Char} {bytes : Vector UInt8 16} : Ipv6Host host bytes →
      AddressText ('[' :: (host ++ [']'])) (.ipv6 bytes 0 0)
  | bracketedPort {host text : List Char} {bytes : Vector UInt8 16} {port : UInt16} : Ipv6Host host bytes →
      PortText text port → AddressText ('[' :: (host ++ ']' :: ':' :: text)) (.ipv6 bytes port 0)

theorem parseIpv6Host_eq_some {host : List Char} {bytes : Vector UInt8 16} :
    parseIpv6Host host = some bytes ↔ Ipv6Host host bytes := by
  rw [parseIpv6Host_iff]
  constructor
  · rintro ⟨groups, text, rfl⟩
    exact ⟨groups, text, groupBytes_toList (ipv6Text_length text)⟩
  · rintro ⟨groups, text, same⟩
    refine ⟨groups, text, ?_⟩
    apply Vector.toList_inj.mp
    rw [same, groupBytes_toList (ipv6Text_length text)]

theorem parseIpv4Host_eq_some {host : List Char} {octets : List UInt8} :
    parseIpv4Host host = some octets ↔ Ipv4Text host octets :=
  ⟨parseIpv4Host_sound, parseIpv4Host_complete⟩

/-! Which characters a host has. -/

theorem ipv4Text_mem {host : List Char} {octets : List UInt8} (text : Ipv4Text host octets) {character : Char}
    (inside : character ∈ host) : character = '.' ∨ ∃ d < 10, digitValue character = some d := by
  obtain ⟨_, texts, rfl, numbers⟩ := text
  rcases mem_intercalate inside with dot | ⟨part, among, within⟩
  · exact .inl dot
  · obtain ⟨octet, _, number⟩ := forall₂_of_mem numbers among
    exact .inr (number.digits character within)

theorem groupsText_mem {text : List Char} {groups : List UInt16} (each : GroupsText text groups)
    {character : Char} (inside : character ∈ text) : character = ':' ∨ ∃ d < 16, digitValue character = some d := by
  obtain ⟨texts, rfl, numbers⟩ := each
  rcases mem_intercalate inside with colon | ⟨part, among, within⟩
  · exact .inl colon
  · obtain ⟨group, _, number⟩ := forall₂_of_mem numbers among
    exact .inr (number.2.digits character within)

theorem ipv6Text_mem {host : List Char} {groups : List UInt16} (text : Ipv6Text host groups) {character : Char}
    (inside : character ∈ host) : character = ':' ∨ ∃ d < 16, digitValue character = some d := by
  cases text with
  | full each _ => exact groupsText_mem each inside
  | compressed head tail _ =>
    simp only [List.mem_append, List.mem_cons, List.not_mem_nil, or_false, or_self] at inside
    rcases inside with (front | colon) | back
    · exact groupsText_mem head front
    · exact .inl colon
    · exact groupsText_mem tail back

/-- What is neither the separator nor a digit is not in a host. -/
theorem ipv4Text_absent {host : List Char} {octets : List UInt8} (text : Ipv4Text host octets) {character : Char}
    (apart : character ≠ '.') (other : digitValue character = none) : character ∉ host := by
  intro inside
  rcases ipv4Text_mem text inside with dot | ⟨d, _, same⟩
  · exact apart dot
  · rw [other] at same
    cases same

theorem ipv6Text_absent {host : List Char} {groups : List UInt16} (text : Ipv6Text host groups) {character : Char}
    (apart : character ≠ ':') (other : digitValue character = none) : character ∉ host := by
  intro inside
  rcases ipv6Text_mem text inside with colon | ⟨d, _, same⟩
  · exact apart colon
  · rw [other] at same
    cases same

theorem ipv4Text_dot {host : List Char} {octets : List UInt8} (text : Ipv4Text host octets) : '.' ∈ host := by
  obtain ⟨four, texts, rfl, numbers⟩ := text
  have solid : ∀ part ∈ texts, Solid '.' part := by
    intro part among
    obtain ⟨_, _, number⟩ := forall₂_of_mem numbers among
    exact solid_numeral number rfl
  apply List.count_pos_iff.mp
  rw [count_intercalate solid, numbers.length_eq, four]
  decide

theorem portText_digits {text : List Char} {port : UInt16} (portText : PortText text port) :
    text ≠ [] ∧ text.all Char.isDigit = true ∧ ':' ∉ text := by
  refine ⟨portText.2.nonempty, ?_, (solid_numeral portText.2 rfl).2⟩
  apply List.all_eq_true.mpr
  intro digit inside
  exact isDigit_iff.mpr (portText.2.digits digit inside)

/-! `from_text`. -/

namespace IpAddress

theorem fromHost_ipv4 {host : List Char} {a b c d : UInt8} (text : Ipv4Text host [a, b, c, d]) (port : UInt32) :
    fromHost host port = .ok (ipv4 a b c d port.toUInt16) := by
  have dot : (find ['.'] host).isSome = true := by
    apply Option.isSome_iff_ne_none.mpr
    intro absent
    exact find_singleton_none.mp absent (ipv4Text_dot text)
  rw [fromHost, if_pos dot, parseIpv4Host_eq_some.mpr text]
  rfl

theorem fromHost_ipv6 {host : List Char} {bytes : Vector UInt8 16} (denotes : Ipv6Host host bytes) (port : UInt32) :
    fromHost host port = .ok (ipv6 bytes port.toUInt16 0) := by
  have dot : find ['.'] host = none := by
    obtain ⟨_, text, _⟩ := denotes
    exact find_singleton_none.mpr (ipv6Text_absent text (by decide) rfl)
  simp only [fromHost, dot, Option.isSome_none, Bool.false_eq_true, if_false, parseIpv6Host_eq_some.mpr denotes]

theorem fromHost_sound {host : List Char} {port : UInt32} {address : IpAddress}
    (read : fromHost host port = .ok address) :
    (∃ a b c d, Ipv4Text host [a, b, c, d] ∧ address = ipv4 a b c d port.toUInt16) ∨
      ∃ bytes, Ipv6Host host bytes ∧ address = ipv6 bytes port.toUInt16 0 := by
  unfold fromHost at read
  split at read
  · split at read
    · cases read
    rename_i octets parsed
    have text := parseIpv4Host_eq_some.mp parsed
    obtain ⟨a, b, c, d, rfl⟩ := List.length_eq_four.mp text.1
    cases read
    exact .inl ⟨a, b, c, d, text, rfl⟩
  · split at read
    · cases read
    rename_i bytes parsed
    cases read
    exact .inr ⟨bytes, parseIpv6Host_eq_some.mp parsed, rfl⟩

theorem fromBracketed_sound {text : List Char} {address : IpAddress} (open_ : text.head? = some '[')
    (read : fromBracketed text = .ok address) : AddressText text address := by
  obtain ⟨text, rfl⟩ := List.head?_eq_some_iff.mp open_
  unfold fromBracketed at read
  split at read
  · cases read
  rename_i close found
  obtain ⟨before, remainder, split, _, length⟩ := find_singleton_split found
  cases before with
  | nil =>
    obtain ⟨same, _⟩ := List.cons.inj split
    exact absurd same (by decide)
  | cons first host =>
    have bracket : '[' = first := (List.cons.inj split).1
    have rest : text = host ++ ']' :: remainder := (List.cons.inj split).2
    subst bracket rest length
    have taken : (('[' :: (host ++ ']' :: remainder)).drop 1).take (('[' :: host).length - 1) = host := by simp
    have behind : ('[' :: (host ++ ']' :: remainder)).drop (('[' :: host).length + 1) = remainder := by simp
    simp only [taken, behind] at read
    split at read
    · cases read
    rename_i port portRead
    split at read
    · cases read
    rename_i bytes parsed
    cases read
    have denotes := parseIpv6Host_eq_some.mp parsed
    split at portRead
    · rename_i empty
      cases portRead
      rw [empty]
      exact .bracketed denotes
    · split at portRead
      · rename_i colon
        obtain ⟨digits, rfl⟩ := List.head?_eq_some_iff.mp colon
        exact .bracketedPort denotes (parsePort_sound portRead)
      · cases portRead

theorem fromText_sound {text : List Char} {address : IpAddress} (read : fromText text = .ok address) :
    AddressText text address := by
  -- Without a port that was split off, the whole text is the host.
  have bare (read : fromHost text 0 = .ok address) : AddressText text address := by
    rcases fromHost_sound read with ⟨a, b, c, d, host, rfl⟩ | ⟨bytes, host, rfl⟩
    · exact .ipv4 host
    · exact .ipv6 host
  unfold fromText at read
  split at read
  · exact fromBracketed_sound ‹_› read
  split at read
  · exact bare read
  rename_i colon _
  simp only at read
  split at read
  case isFalse => exact bare read
  case isTrue port =>
    split at read
    · cases read
    rename_i number parsed
    obtain ⟨host, digits, rfl, absent, length⟩ := find_singleton_split port.2.2
    have behind : (host ++ ':' :: digits).drop (colon + 1) = digits := by
      rw [← length]
      simp
    have front : (host ++ ':' :: digits).take colon = host := by
      rw [← length, List.take_left' rfl]
    rw [behind] at parsed
    rw [front] at read
    rcases fromHost_sound read with ⟨a, b, c, d, text, rfl⟩ | ⟨bytes, ⟨groups, text, _⟩, rfl⟩
    · exact .ipv4Port text (parsePort_sound parsed)
    · -- The host of an IPv6 address has colons of its own.
      have two := ipv6Text_colons text
      rw [List.count_eq_zero_of_not_mem absent] at two
      exact absurd two (by decide)

theorem fromText_bare {text : List Char} (plain : text.head? ≠ some '[')
    (whole : ∀ colon, rfind [':'] text = some colon → ¬ ((text.drop (colon + 1)).all Char.isDigit = true ∧
      find [':'] text = some colon)) : fromText text = fromHost text 0 := by
  rw [fromText, if_neg plain]
  split
  · rfl
  · rename_i colon last
    exact if_neg fun port => whole colon last port.2

theorem head_ne_bracket {text : List Char} (absent : '[' ∉ text) : text.head? ≠ some '[' :=
  fun same => absent (List.mem_of_head? same)

theorem fromBracketed_complete {host remainder : List Char} {bytes : Vector UInt8 16} (port : UInt32)
    (denotes : Ipv6Host host bytes)
    (portRead : (if remainder = [] then some 0
      else if remainder.head? = some ':' then parsePort remainder.tail else none) = some port) :
    fromText ('[' :: (host ++ ']' :: remainder)) = .ok (ipv6 bytes port.toUInt16 0) := by
  have absent : ']' ∉ '[' :: host := by
    obtain ⟨_, text, _⟩ := denotes
    intro inside
    rcases List.mem_cons.mp inside with same | within
    · exact absurd same (by decide)
    · exact ipv6Text_absent text (by decide) rfl within
  have found : find [']'] ('[' :: (host ++ ']' :: remainder)) = some ('[' :: host).length :=
    find_singleton remainder absent
  have taken : (('[' :: (host ++ ']' :: remainder)).drop 1).take (('[' :: host).length - 1) = host := by simp
  have behind : ('[' :: (host ++ ']' :: remainder)).drop (('[' :: host).length + 1) = remainder := by simp
  rw [fromText, if_pos List.head?_cons]
  simp only [fromBracketed, found, taken, behind, portRead, parseIpv6Host_eq_some.mpr denotes]

theorem fromText_complete {text : List Char} {address : IpAddress} (denotes : AddressText text address) :
    fromText text = .ok address := by
  cases denotes with
  | ipv4 host =>
    have colon := ipv4Text_absent host (by decide : ':' ≠ '.') rfl
    have bracket := ipv4Text_absent host (by decide : '[' ≠ '.') rfl
    rw [fromText_bare (head_ne_bracket bracket), fromHost_ipv4 host]
    · rfl
    · intro position last
      rw [rfind_singleton_none colon] at last
      cases last
  | @ipv4Port host text a b c d port hostText portText =>
    obtain ⟨nonempty, digits, absent⟩ := portText_digits portText
    have colon := ipv4Text_absent hostText (by decide : ':' ≠ '.') rfl
    have bracket := ipv4Text_absent hostText (by decide : '[' ≠ '.') rfl
    have plain : (host ++ ':' :: text).head? ≠ some '[' := by
      cases host with
      | nil => simp
      | cons first host =>
        simp only [List.cons_append, List.head?_cons, ne_eq, Option.some.injEq]
        rintro rfl
        exact bracket (by simp)
    have behind : (host ++ ':' :: text).drop (host.length + 1) = text := by simp
    have front : (host ++ ':' :: text).take host.length = host := List.take_left' rfl
    rw [fromText, if_neg plain, rfind_singleton host absent]
    simp only [behind, front, find_singleton text colon, parsePort_complete portText]
    rw [if_pos ⟨nonempty, digits, trivial⟩, fromHost_ipv4 hostText, UInt16.toUInt16_toUInt32]
  | ipv6 denotes =>
    obtain ⟨groups, text, _⟩ := id denotes
    have bracket := ipv6Text_absent text (by decide : '[' ≠ ':') rfl
    rw [fromText_bare (head_ne_bracket bracket), fromHost_ipv6 denotes]
    · rfl
    · rintro colon _ ⟨digits, first⟩
      -- One colon only, where the host has two.
      obtain ⟨before, after, rfl, absent, length⟩ := find_singleton_split first
      have behind : (before ++ ':' :: after).drop (colon + 1) = after := by
        rw [← length]
        simp
      have none : ':' ∉ after := by
        intro inside
        rw [behind] at digits
        exact absurd (List.all_eq_true.mp digits ':' inside) (by decide)
      have two := ipv6Text_colons text
      rw [List.count_append, List.count_cons_self, List.count_eq_zero_of_not_mem absent,
        List.count_eq_zero_of_not_mem none] at two
      omega
  | bracketed denotes => exact fromBracketed_complete 0 denotes rfl
  | @bracketedPort host text bytes port denotes portText =>
    rw [← UInt16.toUInt16_toUInt32 port]
    exact fromBracketed_complete port.toUInt32 denotes (parsePort_complete portText)

theorem fromText_eq_ok {text : List Char} {address : IpAddress} :
    fromText text = .ok address ↔ AddressText text address := ⟨fromText_sound, fromText_complete⟩

theorem fromHost_error {host : List Char} {port : UInt32} {error : NetError}
    (read : fromHost host port = .error error) : error = .invalidArgument := by
  unfold fromHost at read
  split at read
  all_goals
    split at read
    · cases read
      rfl
    · cases read

theorem fromText_error {text : List Char} {error : NetError} (read : fromText text = .error error) :
    error = .invalidArgument := by
  unfold fromText at read
  split at read
  · unfold fromBracketed at read
    split at read
    · cases read
      rfl
    · simp only at read
      split at read
      · cases read
        rfl
      · split at read
        · cases read
          rfl
        · cases read
  · split at read
    · exact fromHost_error read
    · simp only at read
      split at read
      · split at read
        · cases read
          rfl
        · exact fromHost_error read
      · exact fromHost_error read

/-- A text is accepted exactly if it denotes an address, and gives the one that it denotes. -/
theorem fromText_iff (text : List Char) :
    (∀ address, fromText text = .ok address ↔ AddressText text address) ∧
      (fromText text = .error .invalidArgument ↔ ∀ address, ¬ AddressText text address) := by
  refine ⟨fun address => fromText_eq_ok, ?_⟩
  constructor
  · intro refused address denotes
    rw [fromText_complete denotes] at refused
    cases refused
  · intro none
    cases read : fromText text with
    | ok address => exact absurd (fromText_sound read) (none address)
    | error error => rw [fromText_error read]

end IpAddress

end Slopline.Net
