/-!
# Simple case folding

The simple case foldings of the Unicode standard. An entry gives a code point or a range of code
points, and the folding of the first of them; the others of a range fold to the numbers that follow.
-/

namespace ByteSearch.Text.CaseFolding

/-- The code points that fold to another one. -/
def rows : List String := [
  "0041-005A>0061 00B5>03BC 00C0-00D6>00E0 00D8-00DE>00F8 0100>0101 0102>0103 0104>0105",
  "0106>0107 0108>0109 010A>010B 010C>010D 010E>010F 0110>0111 0112>0113 0114>0115 0116>0117",
  "0118>0119 011A>011B 011C>011D 011E>011F 0120>0121 0122>0123 0124>0125 0126>0127 0128>0129",
  "012A>012B 012C>012D 012E>012F 0132>0133 0134>0135 0136>0137 0139>013A 013B>013C 013D>013E",
  "013F>0140 0141>0142 0143>0144 0145>0146 0147>0148 014A>014B 014C>014D 014E>014F 0150>0151",
  "0152>0153 0154>0155 0156>0157 0158>0159 015A>015B 015C>015D 015E>015F 0160>0161 0162>0163",
  "0164>0165 0166>0167 0168>0169 016A>016B 016C>016D 016E>016F 0170>0171 0172>0173 0174>0175",
  "0176>0177 0178>00FF 0179>017A 017B>017C 017D>017E 017F>0073 0181>0253 0182>0183 0184>0185",
  "0186>0254 0187>0188 0189-018A>0256 018B>018C 018E>01DD 018F>0259 0190>025B 0191>0192",
  "0193>0260 0194>0263 0196>0269 0197>0268 0198>0199 019C>026F 019D>0272 019F>0275 01A0>01A1",
  "01A2>01A3 01A4>01A5 01A6>0280 01A7>01A8 01A9>0283 01AC>01AD 01AE>0288 01AF>01B0",
  "01B1-01B2>028A 01B3>01B4 01B5>01B6 01B7>0292 01B8>01B9 01BC>01BD 01C4>01C6 01C5>01C6",
  "01C7>01C9 01C8>01C9 01CA>01CC 01CB>01CC 01CD>01CE 01CF>01D0 01D1>01D2 01D3>01D4 01D5>01D6",
  "01D7>01D8 01D9>01DA 01DB>01DC 01DE>01DF 01E0>01E1 01E2>01E3 01E4>01E5 01E6>01E7 01E8>01E9",
  "01EA>01EB 01EC>01ED 01EE>01EF 01F1>01F3 01F2>01F3 01F4>01F5 01F6>0195 01F7>01BF 01F8>01F9",
  "01FA>01FB 01FC>01FD 01FE>01FF 0200>0201 0202>0203 0204>0205 0206>0207 0208>0209 020A>020B",
  "020C>020D 020E>020F 0210>0211 0212>0213 0214>0215 0216>0217 0218>0219 021A>021B 021C>021D",
  "021E>021F 0220>019E 0222>0223 0224>0225 0226>0227 0228>0229 022A>022B 022C>022D 022E>022F",
  "0230>0231 0232>0233 023A>2C65 023B>023C 023D>019A 023E>2C66 0241>0242 0243>0180 0244>0289",
  "0245>028C 0246>0247 0248>0249 024A>024B 024C>024D 024E>024F 0345>03B9 0370>0371 0372>0373",
  "0376>0377 037F>03F3 0386>03AC 0388-038A>03AD 038C>03CC 038E-038F>03CD 0391-03A1>03B1",
  "03A3-03AB>03C3 03C2>03C3 03CF>03D7 03D0>03B2 03D1>03B8 03D5>03C6 03D6>03C0 03D8>03D9",
  "03DA>03DB 03DC>03DD 03DE>03DF 03E0>03E1 03E2>03E3 03E4>03E5 03E6>03E7 03E8>03E9 03EA>03EB",
  "03EC>03ED 03EE>03EF 03F0>03BA 03F1>03C1 03F4>03B8 03F5>03B5 03F7>03F8 03F9>03F2 03FA>03FB",
  "03FD-03FF>037B 0400-040F>0450 0410-042F>0430 0460>0461 0462>0463 0464>0465 0466>0467",
  "0468>0469 046A>046B 046C>046D 046E>046F 0470>0471 0472>0473 0474>0475 0476>0477 0478>0479",
  "047A>047B 047C>047D 047E>047F 0480>0481 048A>048B 048C>048D 048E>048F 0490>0491 0492>0493",
  "0494>0495 0496>0497 0498>0499 049A>049B 049C>049D 049E>049F 04A0>04A1 04A2>04A3 04A4>04A5",
  "04A6>04A7 04A8>04A9 04AA>04AB 04AC>04AD 04AE>04AF 04B0>04B1 04B2>04B3 04B4>04B5 04B6>04B7",
  "04B8>04B9 04BA>04BB 04BC>04BD 04BE>04BF 04C0>04CF 04C1>04C2 04C3>04C4 04C5>04C6 04C7>04C8",
  "04C9>04CA 04CB>04CC 04CD>04CE 04D0>04D1 04D2>04D3 04D4>04D5 04D6>04D7 04D8>04D9 04DA>04DB",
  "04DC>04DD 04DE>04DF 04E0>04E1 04E2>04E3 04E4>04E5 04E6>04E7 04E8>04E9 04EA>04EB 04EC>04ED",
  "04EE>04EF 04F0>04F1 04F2>04F3 04F4>04F5 04F6>04F7 04F8>04F9 04FA>04FB 04FC>04FD 04FE>04FF",
  "0500>0501 0502>0503 0504>0505 0506>0507 0508>0509 050A>050B 050C>050D 050E>050F 0510>0511",
  "0512>0513 0514>0515 0516>0517 0518>0519 051A>051B 051C>051D 051E>051F 0520>0521 0522>0523",
  "0524>0525 0526>0527 0528>0529 052A>052B 052C>052D 052E>052F 0531-0556>0561 10A0-10C5>2D00",
  "10C7>2D27 10CD>2D2D 13F8-13FD>13F0 1C80>0432 1C81>0434 1C82>043E 1C83-1C84>0441 1C85>0442",
  "1C86>044A 1C87>0463 1C88>A64B 1C90-1CBA>10D0 1CBD-1CBF>10FD 1E00>1E01 1E02>1E03 1E04>1E05",
  "1E06>1E07 1E08>1E09 1E0A>1E0B 1E0C>1E0D 1E0E>1E0F 1E10>1E11 1E12>1E13 1E14>1E15 1E16>1E17",
  "1E18>1E19 1E1A>1E1B 1E1C>1E1D 1E1E>1E1F 1E20>1E21 1E22>1E23 1E24>1E25 1E26>1E27 1E28>1E29",
  "1E2A>1E2B 1E2C>1E2D 1E2E>1E2F 1E30>1E31 1E32>1E33 1E34>1E35 1E36>1E37 1E38>1E39 1E3A>1E3B",
  "1E3C>1E3D 1E3E>1E3F 1E40>1E41 1E42>1E43 1E44>1E45 1E46>1E47 1E48>1E49 1E4A>1E4B 1E4C>1E4D",
  "1E4E>1E4F 1E50>1E51 1E52>1E53 1E54>1E55 1E56>1E57 1E58>1E59 1E5A>1E5B 1E5C>1E5D 1E5E>1E5F",
  "1E60>1E61 1E62>1E63 1E64>1E65 1E66>1E67 1E68>1E69 1E6A>1E6B 1E6C>1E6D 1E6E>1E6F 1E70>1E71",
  "1E72>1E73 1E74>1E75 1E76>1E77 1E78>1E79 1E7A>1E7B 1E7C>1E7D 1E7E>1E7F 1E80>1E81 1E82>1E83",
  "1E84>1E85 1E86>1E87 1E88>1E89 1E8A>1E8B 1E8C>1E8D 1E8E>1E8F 1E90>1E91 1E92>1E93 1E94>1E95",
  "1E9B>1E61 1E9E>00DF 1EA0>1EA1 1EA2>1EA3 1EA4>1EA5 1EA6>1EA7 1EA8>1EA9 1EAA>1EAB 1EAC>1EAD",
  "1EAE>1EAF 1EB0>1EB1 1EB2>1EB3 1EB4>1EB5 1EB6>1EB7 1EB8>1EB9 1EBA>1EBB 1EBC>1EBD 1EBE>1EBF",
  "1EC0>1EC1 1EC2>1EC3 1EC4>1EC5 1EC6>1EC7 1EC8>1EC9 1ECA>1ECB 1ECC>1ECD 1ECE>1ECF 1ED0>1ED1",
  "1ED2>1ED3 1ED4>1ED5 1ED6>1ED7 1ED8>1ED9 1EDA>1EDB 1EDC>1EDD 1EDE>1EDF 1EE0>1EE1 1EE2>1EE3",
  "1EE4>1EE5 1EE6>1EE7 1EE8>1EE9 1EEA>1EEB 1EEC>1EED 1EEE>1EEF 1EF0>1EF1 1EF2>1EF3 1EF4>1EF5",
  "1EF6>1EF7 1EF8>1EF9 1EFA>1EFB 1EFC>1EFD 1EFE>1EFF 1F08-1F0F>1F00 1F18-1F1D>1F10",
  "1F28-1F2F>1F20 1F38-1F3F>1F30 1F48-1F4D>1F40 1F59>1F51 1F5B>1F53 1F5D>1F55 1F5F>1F57",
  "1F68-1F6F>1F60 1F88-1F8F>1F80 1F98-1F9F>1F90 1FA8-1FAF>1FA0 1FB8-1FB9>1FB0 1FBA-1FBB>1F70",
  "1FBC>1FB3 1FBE>03B9 1FC8-1FCB>1F72 1FCC>1FC3 1FD8-1FD9>1FD0 1FDA-1FDB>1F76 1FE8-1FE9>1FE0",
  "1FEA-1FEB>1F7A 1FEC>1FE5 1FF8-1FF9>1F78 1FFA-1FFB>1F7C 1FFC>1FF3 2126>03C9 212A>006B",
  "212B>00E5 2132>214E 2160-216F>2170 2183>2184 24B6-24CF>24D0 2C00-2C2F>2C30 2C60>2C61",
  "2C62>026B 2C63>1D7D 2C64>027D 2C67>2C68 2C69>2C6A 2C6B>2C6C 2C6D>0251 2C6E>0271 2C6F>0250",
  "2C70>0252 2C72>2C73 2C75>2C76 2C7E-2C7F>023F 2C80>2C81 2C82>2C83 2C84>2C85 2C86>2C87",
  "2C88>2C89 2C8A>2C8B 2C8C>2C8D 2C8E>2C8F 2C90>2C91 2C92>2C93 2C94>2C95 2C96>2C97 2C98>2C99",
  "2C9A>2C9B 2C9C>2C9D 2C9E>2C9F 2CA0>2CA1 2CA2>2CA3 2CA4>2CA5 2CA6>2CA7 2CA8>2CA9 2CAA>2CAB",
  "2CAC>2CAD 2CAE>2CAF 2CB0>2CB1 2CB2>2CB3 2CB4>2CB5 2CB6>2CB7 2CB8>2CB9 2CBA>2CBB 2CBC>2CBD",
  "2CBE>2CBF 2CC0>2CC1 2CC2>2CC3 2CC4>2CC5 2CC6>2CC7 2CC8>2CC9 2CCA>2CCB 2CCC>2CCD 2CCE>2CCF",
  "2CD0>2CD1 2CD2>2CD3 2CD4>2CD5 2CD6>2CD7 2CD8>2CD9 2CDA>2CDB 2CDC>2CDD 2CDE>2CDF 2CE0>2CE1",
  "2CE2>2CE3 2CEB>2CEC 2CED>2CEE 2CF2>2CF3 A640>A641 A642>A643 A644>A645 A646>A647 A648>A649",
  "A64A>A64B A64C>A64D A64E>A64F A650>A651 A652>A653 A654>A655 A656>A657 A658>A659 A65A>A65B",
  "A65C>A65D A65E>A65F A660>A661 A662>A663 A664>A665 A666>A667 A668>A669 A66A>A66B A66C>A66D",
  "A680>A681 A682>A683 A684>A685 A686>A687 A688>A689 A68A>A68B A68C>A68D A68E>A68F A690>A691",
  "A692>A693 A694>A695 A696>A697 A698>A699 A69A>A69B A722>A723 A724>A725 A726>A727 A728>A729",
  "A72A>A72B A72C>A72D A72E>A72F A732>A733 A734>A735 A736>A737 A738>A739 A73A>A73B A73C>A73D",
  "A73E>A73F A740>A741 A742>A743 A744>A745 A746>A747 A748>A749 A74A>A74B A74C>A74D A74E>A74F",
  "A750>A751 A752>A753 A754>A755 A756>A757 A758>A759 A75A>A75B A75C>A75D A75E>A75F A760>A761",
  "A762>A763 A764>A765 A766>A767 A768>A769 A76A>A76B A76C>A76D A76E>A76F A779>A77A A77B>A77C",
  "A77D>1D79 A77E>A77F A780>A781 A782>A783 A784>A785 A786>A787 A78B>A78C A78D>0265 A790>A791",
  "A792>A793 A796>A797 A798>A799 A79A>A79B A79C>A79D A79E>A79F A7A0>A7A1 A7A2>A7A3 A7A4>A7A5",
  "A7A6>A7A7 A7A8>A7A9 A7AA>0266 A7AB>025C A7AC>0261 A7AD>026C A7AE>026A A7B0>029E A7B1>0287",
  "A7B2>029D A7B3>AB53 A7B4>A7B5 A7B6>A7B7 A7B8>A7B9 A7BA>A7BB A7BC>A7BD A7BE>A7BF A7C0>A7C1",
  "A7C2>A7C3 A7C4>A794 A7C5>0282 A7C6>1D8E A7C7>A7C8 A7C9>A7CA A7D0>A7D1 A7D6>A7D7 A7D8>A7D9",
  "A7F5>A7F6 AB70-ABBF>13A0 FF21-FF3A>FF41 10400-10427>10428 104B0-104D3>104D8",
  "10570-1057A>10597 1057C-1058A>105A3 1058C-10592>105B3 10594-10595>105BB 10C80-10CB2>10CC0",
  "118A0-118BF>118C0 16E40-16E5F>16E60 1E900-1E921>1E922"]

end ByteSearch.Text.CaseFolding
