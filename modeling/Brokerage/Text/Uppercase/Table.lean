namespace Brokerage.Text

/-- Characters `first`, `first + stride`, ... with the upper cases `target`,
    `target + stride`, ... -/
structure CaseRun where
  first : Nat
  count : Nat
  stride : Nat
  target : Nat

/-- The upper case of the character at code point `n`, if it belongs to the
    run. -/
def CaseRun.map? (run : CaseRun) (n : Nat) : Option Nat :=
  if run.first ≤ n ∧ n < run.first + run.stride * run.count ∧ (n - run.first) % run.stride = 0 then
    some (run.target + (n - run.first))
  else none

/-- The characters with one upper-case character of their own, as of Unicode 17.
    What is neither here nor in `caseExpansions` is its own upper case. -/
def caseRuns : List CaseRun := [
  ⟨0x0061, 26, 1, 0x0041⟩, ⟨0x00B5, 1, 1, 0x039C⟩, ⟨0x00E0, 23, 1, 0x00C0⟩, ⟨0x00F8, 7, 1, 0x00D8⟩,
  ⟨0x00FF, 1, 1, 0x0178⟩, ⟨0x0101, 24, 2, 0x0100⟩, ⟨0x0131, 1, 1, 0x0049⟩, ⟨0x0133, 3, 2, 0x0132⟩,
  ⟨0x013A, 8, 2, 0x0139⟩, ⟨0x014B, 23, 2, 0x014A⟩, ⟨0x017A, 3, 2, 0x0179⟩, ⟨0x017F, 1, 1, 0x0053⟩,
  ⟨0x0180, 1, 1, 0x0243⟩, ⟨0x0183, 2, 2, 0x0182⟩, ⟨0x0188, 1, 1, 0x0187⟩, ⟨0x018C, 1, 1, 0x018B⟩,
  ⟨0x0192, 1, 1, 0x0191⟩, ⟨0x0195, 1, 1, 0x01F6⟩, ⟨0x0199, 1, 1, 0x0198⟩, ⟨0x019A, 1, 1, 0x023D⟩,
  ⟨0x019B, 1, 1, 0xA7DC⟩, ⟨0x019E, 1, 1, 0x0220⟩, ⟨0x01A1, 3, 2, 0x01A0⟩, ⟨0x01A8, 1, 1, 0x01A7⟩,
  ⟨0x01AD, 1, 1, 0x01AC⟩, ⟨0x01B0, 1, 1, 0x01AF⟩, ⟨0x01B4, 2, 2, 0x01B3⟩, ⟨0x01B9, 1, 1, 0x01B8⟩,
  ⟨0x01BD, 1, 1, 0x01BC⟩, ⟨0x01BF, 1, 1, 0x01F7⟩, ⟨0x01C5, 1, 1, 0x01C4⟩, ⟨0x01C6, 1, 1, 0x01C4⟩,
  ⟨0x01C8, 1, 1, 0x01C7⟩, ⟨0x01C9, 1, 1, 0x01C7⟩, ⟨0x01CB, 1, 1, 0x01CA⟩, ⟨0x01CC, 1, 1, 0x01CA⟩,
  ⟨0x01CE, 8, 2, 0x01CD⟩, ⟨0x01DD, 1, 1, 0x018E⟩, ⟨0x01DF, 9, 2, 0x01DE⟩, ⟨0x01F2, 1, 1, 0x01F1⟩,
  ⟨0x01F3, 1, 1, 0x01F1⟩, ⟨0x01F5, 1, 1, 0x01F4⟩, ⟨0x01F9, 20, 2, 0x01F8⟩, ⟨0x0223, 9, 2, 0x0222⟩,
  ⟨0x023C, 1, 1, 0x023B⟩, ⟨0x023F, 2, 1, 0x2C7E⟩, ⟨0x0242, 1, 1, 0x0241⟩, ⟨0x0247, 5, 2, 0x0246⟩,
  ⟨0x0250, 1, 1, 0x2C6F⟩, ⟨0x0251, 1, 1, 0x2C6D⟩, ⟨0x0252, 1, 1, 0x2C70⟩, ⟨0x0253, 1, 1, 0x0181⟩,
  ⟨0x0254, 1, 1, 0x0186⟩, ⟨0x0256, 2, 1, 0x0189⟩, ⟨0x0259, 1, 1, 0x018F⟩, ⟨0x025B, 1, 1, 0x0190⟩,
  ⟨0x025C, 1, 1, 0xA7AB⟩, ⟨0x0260, 1, 1, 0x0193⟩, ⟨0x0261, 1, 1, 0xA7AC⟩, ⟨0x0263, 1, 1, 0x0194⟩,
  ⟨0x0264, 1, 1, 0xA7CB⟩, ⟨0x0265, 1, 1, 0xA78D⟩, ⟨0x0266, 1, 1, 0xA7AA⟩, ⟨0x0268, 1, 1, 0x0197⟩,
  ⟨0x0269, 1, 1, 0x0196⟩, ⟨0x026A, 1, 1, 0xA7AE⟩, ⟨0x026B, 1, 1, 0x2C62⟩, ⟨0x026C, 1, 1, 0xA7AD⟩,
  ⟨0x026F, 1, 1, 0x019C⟩, ⟨0x0271, 1, 1, 0x2C6E⟩, ⟨0x0272, 1, 1, 0x019D⟩, ⟨0x0275, 1, 1, 0x019F⟩,
  ⟨0x027D, 1, 1, 0x2C64⟩, ⟨0x0280, 1, 1, 0x01A6⟩, ⟨0x0282, 1, 1, 0xA7C5⟩, ⟨0x0283, 1, 1, 0x01A9⟩,
  ⟨0x0287, 1, 1, 0xA7B1⟩, ⟨0x0288, 1, 1, 0x01AE⟩, ⟨0x0289, 1, 1, 0x0244⟩, ⟨0x028A, 2, 1, 0x01B1⟩,
  ⟨0x028C, 1, 1, 0x0245⟩, ⟨0x0292, 1, 1, 0x01B7⟩, ⟨0x029D, 1, 1, 0xA7B2⟩, ⟨0x029E, 1, 1, 0xA7B0⟩,
  ⟨0x0345, 1, 1, 0x0399⟩, ⟨0x0371, 2, 2, 0x0370⟩, ⟨0x0377, 1, 1, 0x0376⟩, ⟨0x037B, 3, 1, 0x03FD⟩,
  ⟨0x03AC, 1, 1, 0x0386⟩, ⟨0x03AD, 3, 1, 0x0388⟩, ⟨0x03B1, 17, 1, 0x0391⟩, ⟨0x03C2, 1, 1, 0x03A3⟩,
  ⟨0x03C3, 9, 1, 0x03A3⟩, ⟨0x03CC, 1, 1, 0x038C⟩, ⟨0x03CD, 2, 1, 0x038E⟩, ⟨0x03D0, 1, 1, 0x0392⟩,
  ⟨0x03D1, 1, 1, 0x0398⟩, ⟨0x03D5, 1, 1, 0x03A6⟩, ⟨0x03D6, 1, 1, 0x03A0⟩, ⟨0x03D7, 1, 1, 0x03CF⟩,
  ⟨0x03D9, 12, 2, 0x03D8⟩, ⟨0x03F0, 1, 1, 0x039A⟩, ⟨0x03F1, 1, 1, 0x03A1⟩, ⟨0x03F2, 1, 1, 0x03F9⟩,
  ⟨0x03F3, 1, 1, 0x037F⟩, ⟨0x03F5, 1, 1, 0x0395⟩, ⟨0x03F8, 1, 1, 0x03F7⟩, ⟨0x03FB, 1, 1, 0x03FA⟩,
  ⟨0x0430, 32, 1, 0x0410⟩, ⟨0x0450, 16, 1, 0x0400⟩, ⟨0x0461, 17, 2, 0x0460⟩, ⟨0x048B, 27, 2, 0x048A⟩,
  ⟨0x04C2, 7, 2, 0x04C1⟩, ⟨0x04CF, 1, 1, 0x04C0⟩, ⟨0x04D1, 48, 2, 0x04D0⟩, ⟨0x0561, 38, 1, 0x0531⟩,
  ⟨0x10D0, 43, 1, 0x1C90⟩, ⟨0x10FD, 3, 1, 0x1CBD⟩, ⟨0x13F8, 6, 1, 0x13F0⟩, ⟨0x1C80, 1, 1, 0x0412⟩,
  ⟨0x1C81, 1, 1, 0x0414⟩, ⟨0x1C82, 1, 1, 0x041E⟩, ⟨0x1C83, 2, 1, 0x0421⟩, ⟨0x1C85, 1, 1, 0x0422⟩,
  ⟨0x1C86, 1, 1, 0x042A⟩, ⟨0x1C87, 1, 1, 0x0462⟩, ⟨0x1C88, 1, 1, 0xA64A⟩, ⟨0x1C8A, 1, 1, 0x1C89⟩,
  ⟨0x1D79, 1, 1, 0xA77D⟩, ⟨0x1D7D, 1, 1, 0x2C63⟩, ⟨0x1D8E, 1, 1, 0xA7C6⟩, ⟨0x1E01, 75, 2, 0x1E00⟩,
  ⟨0x1E9B, 1, 1, 0x1E60⟩, ⟨0x1EA1, 48, 2, 0x1EA0⟩, ⟨0x1F00, 8, 1, 0x1F08⟩, ⟨0x1F10, 6, 1, 0x1F18⟩,
  ⟨0x1F20, 8, 1, 0x1F28⟩, ⟨0x1F30, 8, 1, 0x1F38⟩, ⟨0x1F40, 6, 1, 0x1F48⟩, ⟨0x1F51, 4, 2, 0x1F59⟩,
  ⟨0x1F60, 8, 1, 0x1F68⟩, ⟨0x1F70, 2, 1, 0x1FBA⟩, ⟨0x1F72, 4, 1, 0x1FC8⟩, ⟨0x1F76, 2, 1, 0x1FDA⟩,
  ⟨0x1F78, 2, 1, 0x1FF8⟩, ⟨0x1F7A, 2, 1, 0x1FEA⟩, ⟨0x1F7C, 2, 1, 0x1FFA⟩, ⟨0x1FB0, 2, 1, 0x1FB8⟩,
  ⟨0x1FBE, 1, 1, 0x0399⟩, ⟨0x1FD0, 2, 1, 0x1FD8⟩, ⟨0x1FE0, 2, 1, 0x1FE8⟩, ⟨0x1FE5, 1, 1, 0x1FEC⟩,
  ⟨0x214E, 1, 1, 0x2132⟩, ⟨0x2170, 16, 1, 0x2160⟩, ⟨0x2184, 1, 1, 0x2183⟩, ⟨0x24D0, 26, 1, 0x24B6⟩,
  ⟨0x2C30, 48, 1, 0x2C00⟩, ⟨0x2C61, 1, 1, 0x2C60⟩, ⟨0x2C65, 1, 1, 0x023A⟩, ⟨0x2C66, 1, 1, 0x023E⟩,
  ⟨0x2C68, 3, 2, 0x2C67⟩, ⟨0x2C73, 1, 1, 0x2C72⟩, ⟨0x2C76, 1, 1, 0x2C75⟩, ⟨0x2C81, 50, 2, 0x2C80⟩,
  ⟨0x2CEC, 2, 2, 0x2CEB⟩, ⟨0x2CF3, 1, 1, 0x2CF2⟩, ⟨0x2D00, 38, 1, 0x10A0⟩, ⟨0x2D27, 1, 1, 0x10C7⟩,
  ⟨0x2D2D, 1, 1, 0x10CD⟩, ⟨0xA641, 23, 2, 0xA640⟩, ⟨0xA681, 14, 2, 0xA680⟩, ⟨0xA723, 7, 2, 0xA722⟩,
  ⟨0xA733, 31, 2, 0xA732⟩, ⟨0xA77A, 2, 2, 0xA779⟩, ⟨0xA77F, 5, 2, 0xA77E⟩, ⟨0xA78C, 1, 1, 0xA78B⟩,
  ⟨0xA791, 2, 2, 0xA790⟩, ⟨0xA794, 1, 1, 0xA7C4⟩, ⟨0xA797, 10, 2, 0xA796⟩, ⟨0xA7B5, 8, 2, 0xA7B4⟩,
  ⟨0xA7C8, 2, 2, 0xA7C7⟩, ⟨0xA7CD, 8, 2, 0xA7CC⟩, ⟨0xA7F6, 1, 1, 0xA7F5⟩, ⟨0xAB53, 1, 1, 0xA7B3⟩,
  ⟨0xAB70, 80, 1, 0x13A0⟩, ⟨0xFF41, 26, 1, 0xFF21⟩, ⟨0x10428, 40, 1, 0x10400⟩, ⟨0x104D8, 36, 1, 0x104B0⟩,
  ⟨0x10597, 11, 1, 0x10570⟩, ⟨0x105A3, 15, 1, 0x1057C⟩, ⟨0x105B3, 7, 1, 0x1058C⟩, ⟨0x105BB, 2, 1, 0x10594⟩,
  ⟨0x10CC0, 51, 1, 0x10C80⟩, ⟨0x10D70, 22, 1, 0x10D50⟩, ⟨0x118C0, 32, 1, 0x118A0⟩, ⟨0x16E60, 32, 1, 0x16E40⟩,
  ⟨0x16EBB, 25, 1, 0x16EA0⟩, ⟨0x1E922, 34, 1, 0x1E900⟩
]

/-- The characters whose upper case is several characters, with those. -/
def caseExpansions : List (Nat × List Nat) := [
  (0x00DF, [0x0053, 0x0053]), (0x0149, [0x02BC, 0x004E]), (0x01F0, [0x004A, 0x030C]),
  (0x0390, [0x0399, 0x0308, 0x0301]), (0x03B0, [0x03A5, 0x0308, 0x0301]), (0x0587, [0x0535, 0x0552]),
  (0x1E96, [0x0048, 0x0331]), (0x1E97, [0x0054, 0x0308]), (0x1E98, [0x0057, 0x030A]), (0x1E99, [0x0059, 0x030A]),
  (0x1E9A, [0x0041, 0x02BE]), (0x1F50, [0x03A5, 0x0313]), (0x1F52, [0x03A5, 0x0313, 0x0300]),
  (0x1F54, [0x03A5, 0x0313, 0x0301]), (0x1F56, [0x03A5, 0x0313, 0x0342]), (0x1F80, [0x1F08, 0x0399]),
  (0x1F81, [0x1F09, 0x0399]), (0x1F82, [0x1F0A, 0x0399]), (0x1F83, [0x1F0B, 0x0399]), (0x1F84, [0x1F0C, 0x0399]),
  (0x1F85, [0x1F0D, 0x0399]), (0x1F86, [0x1F0E, 0x0399]), (0x1F87, [0x1F0F, 0x0399]), (0x1F88, [0x1F08, 0x0399]),
  (0x1F89, [0x1F09, 0x0399]), (0x1F8A, [0x1F0A, 0x0399]), (0x1F8B, [0x1F0B, 0x0399]), (0x1F8C, [0x1F0C, 0x0399]),
  (0x1F8D, [0x1F0D, 0x0399]), (0x1F8E, [0x1F0E, 0x0399]), (0x1F8F, [0x1F0F, 0x0399]), (0x1F90, [0x1F28, 0x0399]),
  (0x1F91, [0x1F29, 0x0399]), (0x1F92, [0x1F2A, 0x0399]), (0x1F93, [0x1F2B, 0x0399]), (0x1F94, [0x1F2C, 0x0399]),
  (0x1F95, [0x1F2D, 0x0399]), (0x1F96, [0x1F2E, 0x0399]), (0x1F97, [0x1F2F, 0x0399]), (0x1F98, [0x1F28, 0x0399]),
  (0x1F99, [0x1F29, 0x0399]), (0x1F9A, [0x1F2A, 0x0399]), (0x1F9B, [0x1F2B, 0x0399]), (0x1F9C, [0x1F2C, 0x0399]),
  (0x1F9D, [0x1F2D, 0x0399]), (0x1F9E, [0x1F2E, 0x0399]), (0x1F9F, [0x1F2F, 0x0399]), (0x1FA0, [0x1F68, 0x0399]),
  (0x1FA1, [0x1F69, 0x0399]), (0x1FA2, [0x1F6A, 0x0399]), (0x1FA3, [0x1F6B, 0x0399]), (0x1FA4, [0x1F6C, 0x0399]),
  (0x1FA5, [0x1F6D, 0x0399]), (0x1FA6, [0x1F6E, 0x0399]), (0x1FA7, [0x1F6F, 0x0399]), (0x1FA8, [0x1F68, 0x0399]),
  (0x1FA9, [0x1F69, 0x0399]), (0x1FAA, [0x1F6A, 0x0399]), (0x1FAB, [0x1F6B, 0x0399]), (0x1FAC, [0x1F6C, 0x0399]),
  (0x1FAD, [0x1F6D, 0x0399]), (0x1FAE, [0x1F6E, 0x0399]), (0x1FAF, [0x1F6F, 0x0399]), (0x1FB2, [0x1FBA, 0x0399]),
  (0x1FB3, [0x0391, 0x0399]), (0x1FB4, [0x0386, 0x0399]), (0x1FB6, [0x0391, 0x0342]),
  (0x1FB7, [0x0391, 0x0342, 0x0399]), (0x1FBC, [0x0391, 0x0399]), (0x1FC2, [0x1FCA, 0x0399]),
  (0x1FC3, [0x0397, 0x0399]), (0x1FC4, [0x0389, 0x0399]), (0x1FC6, [0x0397, 0x0342]),
  (0x1FC7, [0x0397, 0x0342, 0x0399]), (0x1FCC, [0x0397, 0x0399]), (0x1FD2, [0x0399, 0x0308, 0x0300]),
  (0x1FD3, [0x0399, 0x0308, 0x0301]), (0x1FD6, [0x0399, 0x0342]), (0x1FD7, [0x0399, 0x0308, 0x0342]),
  (0x1FE2, [0x03A5, 0x0308, 0x0300]), (0x1FE3, [0x03A5, 0x0308, 0x0301]), (0x1FE4, [0x03A1, 0x0313]),
  (0x1FE6, [0x03A5, 0x0342]), (0x1FE7, [0x03A5, 0x0308, 0x0342]), (0x1FF2, [0x1FFA, 0x0399]),
  (0x1FF3, [0x03A9, 0x0399]), (0x1FF4, [0x038F, 0x0399]), (0x1FF6, [0x03A9, 0x0342]),
  (0x1FF7, [0x03A9, 0x0342, 0x0399]), (0x1FFC, [0x03A9, 0x0399]), (0xFB00, [0x0046, 0x0046]),
  (0xFB01, [0x0046, 0x0049]), (0xFB02, [0x0046, 0x004C]), (0xFB03, [0x0046, 0x0046, 0x0049]),
  (0xFB04, [0x0046, 0x0046, 0x004C]), (0xFB05, [0x0053, 0x0054]), (0xFB06, [0x0053, 0x0054]),
  (0xFB13, [0x0544, 0x0546]), (0xFB14, [0x0544, 0x0535]), (0xFB15, [0x0544, 0x053B]), (0xFB16, [0x054E, 0x0546]),
  (0xFB17, [0x0544, 0x053D])
]

end Brokerage.Text
